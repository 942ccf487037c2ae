import RepairLoop.Python.Grammar.Notation
/-!
# Statements

The rules for whole texts, for statements on one line and for statements with
blocks, and the rules that explain what is wrong with them.
-/

namespace RepairLoop.Python

open Action

/-- A rule whose results are not kept. -/
def rule (name : String) (alternatives : List (String × Action)) : RuleText :=
  ⟨name, .forgotten, alternatives, false⟩

/-- A rule whose results are kept. -/
def keptRule (name : String) (alternatives : List (String × Action)) : RuleText :=
  ⟨name, .remembered, alternatives, false⟩

/-- A rule that starts with itself. -/
def growingRule (name : String) (alternatives : List (String × Action)) : RuleText :=
  ⟨name, .grown, alternatives, false⟩

/-- Alternatives that hand on what they find. -/
def passing (texts : List String) : List (String × Action) :=
  texts.map fun t => (t, same)

private def dotted : Action := fun s ps =>
  made (.name (nameOf (ps.getD 0 .absent) ++ "." ++ nameOf (ps.getD 2 .absent))) [] s ps

/-- The names that an import statement lists. -/
def importedNames : Action := fun s ps =>
  whole (.importStmt ((nodesOf ps).filterMap fun t =>
    match t.kind, t.children with
    | .item, .node (.name n) _ _ _ _ :: _ => some n
    | _, _ => none)) s ps

/-- An import from a module; dots in front of the module make it a relative one. -/
def importedFrom : Action := fun s ps =>
  named (.importFrom !(ps.getD 1 .absent).marks.isEmpty) 2 [4] s ps

/-- The rules for texts and for statements on one line. -/
def simpleRules : List RuleText := [
  rule "file" [("[statements] ENDMARKER", whole .module)],
  rule "fstring" (passing ["star_expressions"]),
  rule "statements" [("statement+", pick 0)],
  rule "statement" (passing ["compound_stmt", "simple_stmts"]),
  rule "simple_stmts" [
    ("simple_stmt !';' NEWLINE", pick 0),
    ("';'.simple_stmt+ [';'] NEWLINE", pick 0)],
  keptRule "simple_stmt" [
    ("assignment", same),
    ("star_expressions", whole .exprStmt),
    ("&'return' return_stmt", same),
    ("&('import' | 'from') import_stmt", same),
    ("&'raise' raise_stmt", same),
    ("'pass'", whole .passStmt),
    ("&'del' del_stmt", same),
    ("&'yield' yield_stmt", same),
    ("&'assert' assert_stmt", same),
    ("'break'", whole .breakStmt),
    ("'continue'", whole .continueStmt),
    ("&'global' global_stmt", same),
    ("&'nonlocal' nonlocal_stmt", same)],
  rule "compound_stmt" (passing [
    "&('def' | '@' | 'async') function_def",
    "&'if' if_stmt",
    "&('class' | '@') class_def",
    "&('with' | 'async') with_stmt",
    "&('for' | 'async') for_stmt",
    "&'try' try_stmt",
    "&'while' while_stmt",
    "match_stmt"]),
  rule "assignment" [
    ("NAME ':' expression ['=' annotated_rhs]", whole .annAssign),
    ("('(' single_target ')' | single_subscript_attribute_target) ':' expression ['=' annotated_rhs]",
      whole .annAssign),
    ("(star_targets '=')+ (yield_expr | star_expressions) !'='", whole .assign),
    ("single_target augassign ~ (yield_expr | star_expressions)", whole .augAssign),
    ("invalid_assignment", same)],
  rule "annotated_rhs" (passing ["yield_expr", "star_expressions"]),
  rule "augassign" (passing ["'+='", "'-='", "'*='", "'@='", "'/='", "'%='", "'&='", "'|='", "'^='",
    "'<<='", "'>>='", "'**='", "'//='"]),
  rule "return_stmt" [("'return' [star_expressions]", whole .returnStmt)],
  rule "raise_stmt" [
    ("'raise' expression ['from' expression]", whole .raiseStmt),
    ("'raise'", whole .raiseStmt)],
  rule "global_stmt" [("'global' ','.NAME+", node .globalStmt [])],
  rule "nonlocal_stmt" [("'nonlocal' ','.NAME+", node .nonlocalStmt [])],
  rule "del_stmt" [
    ("'del' del_targets &(';' | NEWLINE)", whole .deleteStmt),
    ("invalid_del_stmt", same)],
  rule "yield_stmt" [("yield_expr", whole .exprStmt)],
  rule "assert_stmt" [("'assert' expression [',' expression]", whole .assertStmt)],
  rule "import_stmt" (passing ["import_name", "import_from"]),
  rule "import_name" [("'import' dotted_as_names", importedNames)],
  rule "import_from" [
    ("'from' ('.' | '...')* dotted_name 'import' import_from_targets", importedFrom),
    ("'from' ('.' | '...')+ 'import' import_from_targets", node (.importFrom true "") [3])],
  rule "import_from_targets" [
    ("'(' import_from_as_names [','] ')'", pick 1),
    ("import_from_as_names !','", same),
    ("'*'", node .item []),
    ("invalid_import_from_targets", same)],
  rule "import_from_as_names" (passing ["','.import_from_as_name+"]),
  rule "import_from_as_name" [("NAME ['as' NAME]", node .item [0])],
  rule "dotted_as_names" (passing ["','.dotted_as_name+"]),
  rule "dotted_as_name" [("dotted_name ['as' NAME]", node .item [0])],
  growingRule "dotted_name" [
    ("dotted_name '.' NAME", dotted),
    ("NAME", same)],
  keptRule "block" [
    ("NEWLINE INDENT statements DEDENT", pick 2),
    ("simple_stmts", same),
    ("invalid_block", same)]]

/-- A class: bases, keywords, then the body. -/
private def classAction : Action := fun s ps =>
  let arguments := (ps.getD 2 .absent).nodes.flatMap Syn.children
  made (.classDef (nameOf (ps.getD 1 .absent))) (arguments ++ (ps.getD 4 .absent).nodes) s ps

/-- Decorators stand behind the fields that a definition has by itself, except that
what a function returns comes last. -/
private def decorated : Action := fun _ ps =>
  let decorators := (ps.getD 0 .absent).nodes
  match (ps.getD 1 .absent).nodes with
  | .node (.functionDef n true) l c e cs :: _ =>
    .value (.tree (.node (.functionDef n true) l c e
      (cs.dropLast ++ decorators ++ cs.drop (cs.length - 1))))
  | .node k l c e cs :: _ => .value (.tree (.node k l c e (cs ++ decorators)))
  | [] => .refuse

/-- A function: parameters, body, then what it returns. -/
private def functionAction (shift : Nat) : Action := fun s ps =>
  let part (i : Nat) := (ps.getD (i + shift) .absent).nodes
  let name := nameOf (ps.getD (1 + shift) .absent)
  made (.functionDef name (!(part 5).isEmpty)) (part 3 ++ part 7 ++ part 5) s ps

private def handlerAction (i : Nat) (body : Nat) : Action := node .handler [i, body]

/-- The rules for statements with blocks. -/
def compoundRules : List RuleText := [
  rule "decorators" [("('@' named_expression NEWLINE)+", pick 0)],
  rule "class_def" [
    ("decorators class_def_raw", decorated),
    ("class_def_raw", same)],
  rule "class_def_raw" [
    ("invalid_class_def_raw", same),
    ("'class' NAME ['(' [arguments] ')'] ':' block", classAction)],
  rule "function_def" [
    ("decorators function_def_raw", decorated),
    ("function_def_raw", same)],
  rule "function_def_raw" [
    ("invalid_def_raw", same),
    ("'def' NAME &&'(' [params] ')' ['->' expression] &&':' block", functionAction 0),
    ("'async' 'def' NAME &&'(' [params] ')' ['->' expression] &&':' block", functionAction 1)],
  rule "if_stmt" [
    ("invalid_if_stmt", same),
    ("'if' named_expression ':' block elif_stmt", whole .ifStmt),
    ("'if' named_expression ':' block [else_block]", whole .ifStmt)],
  rule "elif_stmt" [
    ("invalid_elif_stmt", same),
    ("'elif' named_expression ':' block elif_stmt", whole .ifStmt),
    ("'elif' named_expression ':' block [else_block]", whole .ifStmt)],
  rule "else_block" [
    ("invalid_else_stmt", same),
    ("'else' &&':' block", pick 2)],
  rule "while_stmt" [
    ("invalid_while_stmt", same),
    ("'while' named_expression ':' block [else_block]", whole .whileStmt)],
  rule "for_stmt" [
    ("invalid_for_stmt", same),
    ("'for' star_targets 'in' ~ star_expressions ':' block [else_block]", whole .forStmt),
    ("'async' 'for' star_targets 'in' ~ star_expressions ':' block [else_block]", whole .forStmt),
    ("invalid_for_target", same)],
  rule "with_stmt" [
    ("invalid_with_stmt_indent", same),
    ("'with' '(' ','.with_item+ ','? ')' ':' block", whole .withStmt),
    ("'with' ','.with_item+ ':' block", whole .withStmt),
    ("'async' 'with' '(' ','.with_item+ ','? ')' ':' block", whole .withStmt),
    ("'async' 'with' ','.with_item+ ':' block", whole .withStmt),
    ("invalid_with_stmt", same)],
  rule "with_item" [
    ("expression 'as' star_target &(',' | ')' | ':')", whole .withItem),
    ("invalid_with_item", same),
    ("expression", whole .withItem)],
  rule "try_stmt" [
    ("invalid_try_stmt", same),
    ("'try' &&':' block finally_block", whole .tryStmt),
    ("'try' &&':' block except_block+ [else_block] [finally_block]", whole .tryStmt),
    ("'try' &&':' block except_star_block+ [else_block] [finally_block]", whole .tryGroupStmt)],
  rule "except_block" [
    ("invalid_except_stmt_indent", same),
    ("'except' expression ['as' NAME] ':' block", handlerAction 1 4),
    ("'except' ':' block", fun s ps => made .handler
      (.node .item s.line s.column s.stop [] :: (ps.getD 2 .absent).nodes) s ps),
    ("invalid_except_stmt", same)],
  rule "except_star_block" [
    ("invalid_except_star_stmt_indent", same),
    ("'except' '*' expression ['as' NAME] ':' block", handlerAction 2 5),
    ("invalid_except_stmt", same)],
  rule "finally_block" [
    ("invalid_finally_stmt", same),
    ("'finally' &&':' block", pick 2)]]

private def isStarGroup (t : Syn) : Bool := t.kind == .starParameters

private def parameterOf (t : Syn) : List Syn :=
  match t.kind with
  | .defaulted => t.children.take 1
  | .item => []
  | _ => [t]

private def defaultOf (t : Syn) : List Syn :=
  match t.kind with
  | .defaulted => t.children.drop 1
  | _ => []

private def restOf (t : Syn) : List Syn :=
  match t.kind with
  | .item => t.children
  | _ => []

/-- The parameters of a function: all that are named, the defaults of those that
stand behind a star, the parameter for further names, the defaults of the others. -/
def argumentsAction : Action := fun s ps =>
  let nodes := nodesOf ps
  let plain := nodes.filter fun t => !isStarGroup t
  let starred := (nodes.filter isStarGroup).flatMap Syn.children
  made .arguments (plain.flatMap parameterOf ++ starred.flatMap parameterOf ++
    starred.flatMap defaultOf ++ starred.flatMap restOf ++ plain.flatMap defaultOf) s ps

/-- The rules for parameters. -/
def parameterRules : List RuleText := [
  rule "params" (passing ["invalid_parameters", "parameters"]),
  rule "parameters" [
    ("slash_no_default param_no_default* param_with_default* [star_etc]", argumentsAction),
    ("slash_with_default param_with_default* [star_etc]", argumentsAction),
    ("param_no_default+ param_with_default* [star_etc]", argumentsAction),
    ("param_with_default+ [star_etc]", argumentsAction),
    ("star_etc", argumentsAction)],
  rule "slash_no_default" [
    ("param_no_default+ '/' ','", pick 0),
    ("param_no_default+ '/' &')'", pick 0)],
  rule "slash_with_default" [
    ("param_no_default* param_with_default+ '/' ','", same),
    ("param_no_default* param_with_default+ '/' &')'", same)],
  rule "star_etc" [
    ("invalid_star_etc", same),
    ("'*' param_no_default param_maybe_default* [kwds]", whole .starParameters),
    ("'*' param_no_default_star_annotation param_maybe_default* [kwds]", whole .starParameters),
    ("'*' ',' param_maybe_default+ [kwds]", whole .starParameters),
    ("kwds", whole .starParameters)],
  rule "kwds" [
    ("invalid_kwds", same),
    ("'**' param_no_default", whole .item)],
  rule "param_no_default" [
    ("param ','", pick 0),
    ("param &')'", same)],
  rule "param_no_default_star_annotation" [
    ("param_star_annotation ','", pick 0),
    ("param_star_annotation &')'", same)],
  rule "param_with_default" [
    ("param default ','", whole .defaulted),
    ("param default &')'", whole .defaulted)],
  rule "param_maybe_default" [
    ("param default? ','", whole .defaulted),
    ("param default? &')'", whole .defaulted)],
  rule "param" [("NAME annotation?", named .parameter 0 [1])],
  rule "param_star_annotation" [("NAME star_annotation", named .parameter 0 [1])],
  rule "annotation" [("':' expression", pick 1)],
  rule "star_annotation" [("':' star_expression", pick 1)],
  rule "default" [
    ("'=' expression", pick 1),
    ("invalid_default", same)]]

/-- What is wrong with statements on one line and with blocks. -/
def statementFaults : List RuleText := [
  rule "invalid_assignment" [
    ("invalid_ann_assign_target ':' expression",
      complainOf 0 fun what => s!"only single target (not {what}) can be annotated"),
    ("star_named_expression ',' star_named_expressions* ':' expression",
      complain 0 "only single target (not tuple) can be annotated"),
    ("expression ':' expression", complain 0 "illegal target for annotation"),
    ("(star_targets '=')* star_expressions '='", complainTarget .assigned 1),
    ("(star_targets '=')* yield_expr '='",
      complain 1 "assignment to yield expression not possible"),
    ("star_expressions augassign (yield_expr | star_expressions)",
      complainOf 0 fun what => s!"'{what}' is an illegal expression for augmented assignment")],
  rule "invalid_ann_assign_target" [
    ("list", same),
    ("tuple", same),
    ("'(' invalid_ann_assign_target ')'", pick 1)],
  rule "invalid_del_stmt" [("'del' star_expressions", complainTarget .deleted 1)],
  rule "invalid_block" [("NEWLINE !INDENT", complainHere "expected an indented block")],
  rule "invalid_import_from_targets" [
    ("import_from_as_names ',' NEWLINE",
      complainHere "trailing comma not allowed without surrounding parentheses")],
  rule "invalid_with_item" [
    ("expression 'as' expression &(',' | ')' | ':')", complainTarget .assigned 2)],
  rule "invalid_for_target" [
    ("'async'? 'for' star_expressions", complainTarget .iterated 2)],
  rule "invalid_with_stmt" [
    ("['async'] 'with' ','.(expression ['as' star_target])+ NEWLINE", complainHere "expected ':'"),
    ("['async'] 'with' '(' ','.(expressions ['as' star_target])+ ','? ')' NEWLINE",
      complainHere "expected ':'")],
  rule "invalid_with_stmt_indent" [
    ("['async'] 'with' ','.(expression ['as' star_target])+ ':' NEWLINE !INDENT",
      noBlock "'with' statement" 1),
    ("['async'] 'with' '(' ','.(expressions ['as' star_target])+ ','? ')' ':' NEWLINE !INDENT",
      noBlock "'with' statement" 1)],
  rule "invalid_try_stmt" [
    ("'try' ':' NEWLINE !INDENT", noBlock "'try' statement" 0),
    ("'try' ':' block !('except' | 'finally')",
      complainHere "expected 'except' or 'finally' block"),
    ("'try' ':' block* ((except_block+ except_star_block) | (except_star_block+ except_block)) block*",
      complainHere "cannot have both 'except' and 'except*' on the same 'try'")],
  rule "invalid_except_stmt" [
    ("'except' '*'? expression ',' expressions ['as' NAME ] ':'",
      complain 2 "multiple exception types must be parenthesized"),
    ("'except' '*'? expression ['as' NAME ] NEWLINE", complainHere "expected ':'"),
    ("'except' NEWLINE", complainHere "expected ':'"),
    ("'except' '*' (NEWLINE | ':')", complainHere "expected one or more exception types")],
  rule "invalid_finally_stmt" [
    ("'finally' ':' NEWLINE !INDENT", noBlock "'finally' statement" 0)],
  rule "invalid_except_stmt_indent" [
    ("'except' expression ['as' NAME ] ':' NEWLINE !INDENT", noBlock "'except' statement" 0),
    ("'except' ':' NEWLINE !INDENT", noBlock "'except' statement" 0)],
  rule "invalid_except_star_stmt_indent" [
    ("'except' '*' expression ['as' NAME ] ':' NEWLINE !INDENT", noBlock "'except*' statement" 0)],
  rule "invalid_if_stmt" [
    ("'if' named_expression NEWLINE", complainHere "expected ':'"),
    ("'if' named_expression ':' NEWLINE !INDENT", noBlock "'if' statement" 0)],
  rule "invalid_elif_stmt" [
    ("'elif' named_expression NEWLINE", complainHere "expected ':'"),
    ("'elif' named_expression ':' NEWLINE !INDENT", noBlock "'elif' statement" 0)],
  rule "invalid_else_stmt" [("'else' ':' NEWLINE !INDENT", noBlock "'else' statement" 0)],
  rule "invalid_while_stmt" [
    ("'while' named_expression NEWLINE", complainHere "expected ':'"),
    ("'while' named_expression ':' NEWLINE !INDENT", noBlock "'while' statement" 0)],
  rule "invalid_for_stmt" [
    ("['async'] 'for' star_targets 'in' star_expressions NEWLINE", complainHere "expected ':'"),
    ("['async'] 'for' star_targets 'in' star_expressions ':' NEWLINE !INDENT",
      noBlock "'for' statement" 1)],
  rule "invalid_def_raw" [
    ("['async'] 'def' NAME '(' [params] ')' ['->' expression] ':' NEWLINE !INDENT",
      noBlock "function definition" 1)],
  rule "invalid_class_def_raw" [
    ("'class' NAME ['(' [arguments] ')'] NEWLINE", complainHere "expected ':'"),
    ("'class' NAME ['(' [arguments] ')'] ':' NEWLINE !INDENT", noBlock "class definition" 0)]]

/-- What is wrong with parameters. -/
def parameterFaults : List RuleText := [
  rule "invalid_parameters" [
    ("param_no_default* invalid_parameters_helper param_no_default",
      complain 2 "non-default argument follows default argument"),
    ("param_no_default* '(' param_no_default+ ','? ')'",
      complain 1 "Function parameters cannot be parenthesized"),
    ("'/' ','", complain 0 "at least one argument must precede /"),
    ("(slash_no_default | slash_with_default) param_maybe_default* '/'",
      complain 2 "/ may appear only once"),
    ("(slash_no_default | slash_with_default)? param_maybe_default* '*' (',' | param_no_default) param_maybe_default* '/'",
      complain 5 "/ must be ahead of *"),
    ("param_maybe_default+ '/' '*'", complain 2 "expected comma between / and *")],
  rule "invalid_parameters_helper" (passing ["slash_with_default", "param_with_default+"]),
  rule "invalid_default" [("'=' &(')' | ',')", complain 0 "expected default value expression")],
  rule "invalid_star_etc" [
    ("'*' (')' | ',' (')' | '**'))", complain 0 "named arguments must follow bare *"),
    ("'*' param '='", complain 2 "var-positional argument cannot have default value"),
    ("'*' (param_no_default | ',') param_maybe_default* '*' (param_no_default | ',')",
      complain 3 "* argument may appear only once")],
  rule "invalid_kwds" [
    ("'**' param '='", complain 2 "var-keyword argument cannot have default value"),
    ("'**' param ',' param", complain 3 "arguments cannot follow var-keyword argument"),
    ("'**' param ',' ('*' | '**' | '/')",
      complain 3 "arguments cannot follow var-keyword argument")]]

end RepairLoop.Python
