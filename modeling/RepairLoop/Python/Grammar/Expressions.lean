import RepairLoop.Python.Grammar.Statements
/-!
# Expressions and patterns

The rules for expressions and for the patterns of `match` statements.
-/

/-!
## Patterns

The rules for `match` statements and for the patterns in their cases.
-/

namespace RepairLoop.Python

open Action

private def isImaginary (p : Part) : Bool :=
  match p.nodes with
  | .node (.constant .imaginary) _ _ _ _ :: _ => true
  | _ => false

private def realOnly : Action := fun s ps =>
  if ps.any isImaginary then complain 0 "real number required in complex literal" s ps
  else same s ps

private def imaginaryOnly : Action := fun s ps =>
  if ps.any isImaginary then same s ps
  else complain 0 "imaginary number required in complex literal" s ps

private def orPattern : Action := fun s ps =>
  match nodesOf ps with
  | [p] => .value (.tree p)
  | _ => whole .pattern s ps

private def literalNode (c : Constant) : Action := node (.constant c) []

/-- A mapping pattern: its keys, then its patterns. -/
private def mapping (i : Nat) : Action := fun s ps =>
  let pairs := (ps.getD i .absent).nodes
  made .pattern ((pairs.flatMap fun p => p.children.take 1) ++
    (pairs.flatMap fun p => p.children.drop 1)) s ps

/-- The rules for patterns. -/
def patternRules : List RuleText := [
  rule "match_stmt" [
    ("%match subject_expr ':' NEWLINE INDENT case_block+ DEDENT", node .matchStmt [1, 5]),
    ("invalid_match_stmt", same)],
  rule "subject_expr" [
    ("star_named_expression ',' star_named_expressions?", whole .tuple),
    ("named_expression", same)],
  rule "case_block" [
    ("invalid_case_block", same),
    ("%case patterns guard? ':' block", node .matchCase [1, 2, 4])],
  rule "guard" [("'if' named_expression", pick 1)],
  rule "patterns" [
    ("open_sequence_pattern", whole .pattern),
    ("pattern", same)],
  rule "pattern" (passing ["as_pattern", "or_pattern"]),
  rule "as_pattern" [
    ("or_pattern 'as' pattern_capture_target", node .pattern [0]),
    ("invalid_as_pattern", same)],
  rule "or_pattern" [("'|'.closed_pattern+", orPattern)],
  keptRule "closed_pattern" (passing ["literal_pattern", "capture_pattern", "wildcard_pattern",
    "value_pattern", "group_pattern", "sequence_pattern", "mapping_pattern", "class_pattern"]),
  rule "literal_pattern" [
    ("signed_number !('+' | '-')", whole .pattern),
    ("complex_number", whole .pattern),
    ("strings", whole .pattern),
    ("'None'", node .pattern []),
    ("'True'", node .pattern []),
    ("'False'", node .pattern [])],
  rule "literal_expr" [
    ("signed_number !('+' | '-')", same),
    ("complex_number", same),
    ("strings", same),
    ("'None'", literalNode .nothing),
    ("'True'", literalNode .yes),
    ("'False'", literalNode .no)],
  rule "complex_number" [
    ("signed_real_number '+' imaginary_number", whole .binOp),
    ("signed_real_number '-' imaginary_number", whole .binOp)],
  rule "signed_number" [
    ("NUMBER", same),
    ("'-' NUMBER", whole .unaryOp)],
  rule "signed_real_number" [
    ("real_number", same),
    ("'-' real_number", whole .unaryOp)],
  rule "real_number" [("NUMBER", realOnly)],
  rule "imaginary_number" [("NUMBER", imaginaryOnly)],
  rule "capture_pattern" [("pattern_capture_target", node .pattern [])],
  rule "pattern_capture_target" [("!%_ NAME !('.' | '(' | '=')", same)],
  rule "wildcard_pattern" [("%_", node .pattern [])],
  rule "value_pattern" [("attr !('.' | '(' | '=')", whole .pattern)],
  growingRule "attr" [("name_or_attr '.' NAME", named .attribute 2 [0])],
  rule "name_or_attr" (passing ["attr", "NAME"]),
  rule "group_pattern" [("'(' pattern ')'", pick 1)],
  rule "sequence_pattern" [
    ("'[' maybe_sequence_pattern? ']'", whole .pattern),
    ("'(' open_sequence_pattern? ')'", whole .pattern)],
  rule "open_sequence_pattern" [("maybe_star_pattern ',' maybe_sequence_pattern?", same)],
  rule "maybe_sequence_pattern" [("','.maybe_star_pattern+ ','?", pick 0)],
  rule "maybe_star_pattern" (passing ["star_pattern", "pattern"]),
  keptRule "star_pattern" [
    ("'*' pattern_capture_target", node .pattern []),
    ("'*' wildcard_pattern", node .pattern [])],
  rule "mapping_pattern" [
    ("'\x7b' '\x7d'", node .pattern []),
    ("'\x7b' double_star_pattern ','? '\x7d'", node .pattern []),
    ("'\x7b' items_pattern ',' double_star_pattern ','? '\x7d'", mapping 1),
    ("'\x7b' items_pattern ','? '\x7d'", mapping 1)],
  rule "items_pattern" (passing ["','.key_value_pattern+"]),
  rule "key_value_pattern" [("(literal_expr | attr) ':' pattern", whole .item)],
  rule "double_star_pattern" [("'**' pattern_capture_target", pick 1)],
  rule "class_pattern" [
    ("name_or_attr '(' ')'", whole .pattern),
    ("name_or_attr '(' positional_patterns ','? ')'", whole .pattern),
    ("name_or_attr '(' keyword_patterns ','? ')'", whole .pattern),
    ("name_or_attr '(' positional_patterns ',' keyword_patterns ','? ')'", whole .pattern),
    ("invalid_class_pattern", same)],
  rule "positional_patterns" (passing ["','.pattern+"]),
  rule "keyword_patterns" (passing ["','.keyword_pattern+"]),
  rule "keyword_pattern" [("NAME '=' pattern", pick 2)],
  rule "invalid_match_stmt" [
    ("%match subject_expr NEWLINE", complainHere "expected ':'"),
    ("%match subject_expr ':' NEWLINE !INDENT", noBlock "'match' statement" 0)],
  rule "invalid_case_block" [
    ("%case patterns guard? NEWLINE", complainHere "expected ':'"),
    ("%case patterns guard? ':' NEWLINE !INDENT", noBlock "'case' statement" 0)],
  rule "invalid_as_pattern" [
    ("or_pattern 'as' %_", complain 2 "cannot use '_' as a target"),
    ("or_pattern 'as' !NAME expression", complain 2 "invalid pattern target")],
  rule "invalid_class_pattern" [
    ("name_or_attr '(' invalid_class_argument_pattern",
      complain 2 "positional patterns follow keyword patterns")],
  rule "invalid_class_argument_pattern" [
    ("[positional_patterns ','] keyword_patterns ',' positional_patterns", pick 3)]]

end RepairLoop.Python

/-!
## Expressions

The rules for expressions, for the arguments of calls and for targets, and the
rules that explain what is wrong with them.
-/

namespace RepairLoop.Python

open Action

private def constantNode (c : Constant) : Action := node (.constant c) []

private def condition : Action := node .ifExp [2, 0, 4]

private def comparison : Action := fun s ps =>
  let pairs := (ps.getD 1 .absent).nodes
  let ops := pairs.map fun p =>
    match p.kind with
    | .comparePair op => op
    | _ => .other
  made (.compare ops) ((ps.getD 0 .absent).nodes ++ pairs.flatMap Syn.children) s ps

private def compared (op : Comparison) : Action := whole (.comparePair op)

private def isKeyword (t : Syn) : Bool :=
  match t.kind with
  | .keyword _ => true
  | _ => false

/-- The arguments of a call: the positional ones, then the named ones. -/
private def argumentsNode : Action := fun s ps =>
  let nodes := nodesOf ps
  made .call ((nodes.filter fun t => !isKeyword t) ++ nodes.filter isKeyword) s ps

/-- A call: what is called, then its arguments. -/
private def callNode : Action := fun s ps =>
  made .call ((ps.getD 0 .absent).nodes ++
    (ps.getD 2 .absent).nodes.flatMap Syn.children) s ps

/-- A dictionary: its keys, then its values. -/
private def dictNode : Action := fun s ps =>
  let pairs := (ps.getD 1 .absent).nodes
  let keys := pairs.flatMap fun p => if p.children.length == 2 then p.children.take 1 else []
  made .dict (keys ++ pairs.flatMap fun p => p.children.drop (p.children.length - 1)) s ps

private def dictCompNode : Action := fun s ps =>
  made .dictComp (((ps.getD 1 .absent).nodes.flatMap Syn.children) ++
    (ps.getD 2 .absent).nodes) s ps

/-- The rules for operators. -/
def operatorRules : List RuleText := [
  rule "expressions" [
    ("expression (',' expression)+ [',']", whole .tuple),
    ("expression ','", whole .tuple),
    ("expression", same)],
  keptRule "expression" [
    ("invalid_expression", same),
    ("invalid_legacy_expression", same),
    ("disjunction 'if' disjunction 'else' expression", condition),
    ("disjunction", same),
    ("lambdef", same)],
  rule "yield_expr" [
    ("'yield' 'from' expression", whole .yield),
    ("'yield' [star_expressions]", whole .yield)],
  rule "star_expressions" [
    ("star_expression (',' star_expression)+ [',']", whole .tuple),
    ("star_expression ','", whole .tuple),
    ("star_expression", same)],
  keptRule "star_expression" [
    ("'*' bitwise_or", whole .starred),
    ("expression", same)],
  rule "star_named_expressions" [("','.star_named_expression+ [',']", pick 0)],
  rule "star_named_expression" [
    ("'*' bitwise_or", whole .starred),
    ("named_expression", same)],
  rule "assignment_expression" [("NAME ':=' ~ expression", whole .namedExpr)],
  rule "named_expression" (passing ["assignment_expression", "invalid_named_expression",
    "expression !':='"]),
  keptRule "disjunction" [
    ("conjunction ('or' conjunction)+", whole .boolOp),
    ("conjunction", same)],
  keptRule "conjunction" [
    ("inversion ('and' inversion)+", whole .boolOp),
    ("inversion", same)],
  keptRule "inversion" [
    ("'not' inversion", whole .unaryOp),
    ("comparison", same)],
  rule "comparison" [
    ("bitwise_or compare_op_bitwise_or_pair+", comparison),
    ("bitwise_or", same)],
  rule "compare_op_bitwise_or_pair" [
    ("'==' bitwise_or", compared .other),
    ("'!=' bitwise_or", compared .other),
    ("'<=' bitwise_or", compared .other),
    ("'<' bitwise_or", compared .other),
    ("'>=' bitwise_or", compared .other),
    ("'>' bitwise_or", compared .other),
    ("'not' 'in' bitwise_or", compared .notMember),
    ("'in' bitwise_or", compared .member),
    ("'is' 'not' bitwise_or", compared .other),
    ("'is' bitwise_or", compared .other)],
  growingRule "bitwise_or" [
    ("bitwise_or '|' bitwise_xor", whole .binOp),
    ("bitwise_xor", same)],
  growingRule "bitwise_xor" [
    ("bitwise_xor '^' bitwise_and", whole .binOp),
    ("bitwise_and", same)],
  growingRule "bitwise_and" [
    ("bitwise_and '&' shift_expr", whole .binOp),
    ("shift_expr", same)],
  growingRule "shift_expr" [
    ("shift_expr '<<' sum", whole .binOp),
    ("shift_expr '>>' sum", whole .binOp),
    ("sum", same)],
  growingRule "sum" [
    ("sum '+' term", whole .binOp),
    ("sum '-' term", whole .binOp),
    ("term", same)],
  growingRule "term" [
    ("term '*' factor", whole .binOp),
    ("term '/' factor", whole .binOp),
    ("term '//' factor", whole .binOp),
    ("term '%' factor", whole .binOp),
    ("term '@' factor", whole .binOp),
    ("factor", same)],
  keptRule "factor" [
    ("'+' factor", whole .unaryOp),
    ("'-' factor", whole .unaryOp),
    ("'~' factor", whole .unaryOp),
    ("power", same)],
  rule "power" [
    ("await_primary '**' factor", whole .binOp),
    ("await_primary", same)],
  keptRule "await_primary" [
    ("'await' primary", whole .await),
    ("primary", same)]]

/-- The rules for the smallest expressions. -/
def primaryRules : List RuleText := [
  growingRule "primary" [
    ("primary '.' NAME", named .attribute 2 [0]),
    ("primary genexp", whole .call),
    ("primary '(' [arguments] ')'", callNode),
    ("primary '[' slices ']'", whole .subscript),
    ("atom", same)],
  rule "slices" [
    ("slice !','", same),
    ("','.(slice | starred_expression)+ [',']", whole .tuple)],
  rule "slice" [
    ("[expression] ':' [expression] [':' [expression]]", whole .slice),
    ("named_expression", same)],
  rule "atom" [
    ("NAME", same),
    ("'True'", constantNode .yes),
    ("'False'", constantNode .no),
    ("'None'", constantNode .nothing),
    ("&STRING strings", same),
    ("NUMBER", same),
    ("&'(' (tuple | group | genexp)", same),
    ("&'[' (list | listcomp)", same),
    ("&'\x7b' (dict | set | dictcomp | setcomp)", same),
    ("'...'", constantNode .ellipsis)],
  rule "group" [
    ("'(' (yield_expr | named_expression) ')'", pick 1),
    ("invalid_group", same)],
  rule "lambdef" [("'lambda' [lambda_params] ':' expression", whole .lambda)],
  rule "lambda_params" (passing ["invalid_lambda_parameters", "lambda_parameters"]),
  rule "lambda_parameters" [
    ("lambda_slash_no_default lambda_param_no_default* lambda_param_with_default* [lambda_star_etc]",
      argumentsAction),
    ("lambda_slash_with_default lambda_param_with_default* [lambda_star_etc]", argumentsAction),
    ("lambda_param_no_default+ lambda_param_with_default* [lambda_star_etc]", argumentsAction),
    ("lambda_param_with_default+ [lambda_star_etc]", argumentsAction),
    ("lambda_star_etc", argumentsAction)],
  rule "lambda_slash_no_default" [
    ("lambda_param_no_default+ '/' ','", pick 0),
    ("lambda_param_no_default+ '/' &':'", pick 0)],
  rule "lambda_slash_with_default" [
    ("lambda_param_no_default* lambda_param_with_default+ '/' ','", same),
    ("lambda_param_no_default* lambda_param_with_default+ '/' &':'", same)],
  rule "lambda_star_etc" [
    ("invalid_lambda_star_etc", same),
    ("'*' lambda_param_no_default lambda_param_maybe_default* [lambda_kwds]",
      whole .starParameters),
    ("'*' ',' lambda_param_maybe_default+ [lambda_kwds]", whole .starParameters),
    ("lambda_kwds", whole .starParameters)],
  rule "lambda_kwds" [
    ("invalid_lambda_kwds", same),
    ("'**' lambda_param_no_default", whole .item)],
  rule "lambda_param_no_default" [
    ("lambda_param ','", pick 0),
    ("lambda_param &':'", same)],
  rule "lambda_param_with_default" [
    ("lambda_param default ','", whole .defaulted),
    ("lambda_param default &':'", whole .defaulted)],
  rule "lambda_param_maybe_default" [
    ("lambda_param default? ','", whole .defaulted),
    ("lambda_param default? &':'", whole .defaulted)],
  rule "lambda_param" [("NAME", named .parameter 0 [])],
  keptRule "strings" [("STRING+", fun _ ps => .literal (marksOf ps))],
  rule "list" [("'[' [star_named_expressions] ']'", whole .list)],
  rule "tuple" [
    ("'(' [star_named_expression ',' [star_named_expressions]] ')'", whole .tuple)],
  rule "set" [("'\x7b' star_named_expressions '\x7d'", whole .set)],
  rule "dict" [
    ("'\x7b' [double_starred_kvpairs] '\x7d'", dictNode),
    ("'\x7b' invalid_double_starred_kvpairs '\x7d'", same)],
  rule "double_starred_kvpairs" [("','.double_starred_kvpair+ [',']", pick 0)],
  rule "double_starred_kvpair" [
    ("'**' bitwise_or", whole .item),
    ("kvpair", same)],
  rule "kvpair" [("expression ':' expression", whole .item)],
  rule "for_if_clauses" [("for_if_clause+", pick 0)],
  rule "for_if_clause" [
    ("'async' 'for' star_targets 'in' ~ disjunction ('if' disjunction)*", whole .comprehension),
    ("'for' star_targets 'in' ~ disjunction ('if' disjunction)*", whole .comprehension),
    ("invalid_for_target", same)],
  rule "listcomp" [
    ("'[' named_expression for_if_clauses ']'", whole .listComp),
    ("invalid_comprehension", same)],
  rule "setcomp" [
    ("'\x7b' named_expression for_if_clauses '\x7d'", whole .setComp),
    ("invalid_comprehension", same)],
  rule "genexp" [
    ("'(' (assignment_expression | expression !':=') for_if_clauses ')'", whole .generator),
    ("invalid_comprehension", same)],
  rule "dictcomp" [
    ("'\x7b' kvpair for_if_clauses '\x7d'", dictCompNode),
    ("invalid_dict_comprehension", same)]]

private def keywordNode : Action := fun s ps =>
  made (.keyword (some (nameOf (ps.getD 0 .absent)))) (ps.getD 2 .absent).nodes s ps

/-- The rules for the arguments of a call. -/
def argumentRules : List RuleText := [
  keptRule "arguments" [
    ("args [','] &')'", pick 0),
    ("invalid_arguments", same)],
  rule "args" [
    ("','.(starred_expression | (assignment_expression | expression !':=') !'=')+ [',' kwargs]",
      argumentsNode),
    ("kwargs", argumentsNode)],
  rule "kwargs" (passing ["','.kwarg_or_starred+ ',' ','.kwarg_or_double_starred+",
    "','.kwarg_or_starred+", "','.kwarg_or_double_starred+"]),
  rule "starred_expression" [("'*' expression", whole .starred)],
  rule "kwarg_or_starred" [
    ("invalid_kwarg", same),
    ("NAME '=' expression", keywordNode),
    ("starred_expression", same)],
  rule "kwarg_or_double_starred" [
    ("invalid_kwarg", same),
    ("NAME '=' expression", keywordNode),
    ("'**' expression", whole (.keyword none))]]

/-- The rules for targets. -/
def targetRules : List RuleText := [
  rule "star_targets" [
    ("star_target !','", same),
    ("star_target (',' star_target)* [',']", whole .tuple)],
  rule "star_targets_list_seq" [("','.star_target+ [',']", pick 0)],
  rule "star_targets_tuple_seq" (passing ["star_target (',' star_target)+ [',']",
    "star_target ','"]),
  keptRule "star_target" [
    ("'*' !'*' star_target", whole .starred),
    ("target_with_star_atom", same)],
  keptRule "target_with_star_atom" [
    ("t_primary '.' NAME !t_lookahead", named .attribute 2 [0]),
    ("t_primary '[' slices ']' !t_lookahead", whole .subscript),
    ("star_atom", same)],
  rule "star_atom" [
    ("NAME", same),
    ("'(' target_with_star_atom ')'", pick 1),
    ("'(' [star_targets_tuple_seq] ')'", whole .tuple),
    ("'[' [star_targets_list_seq] ']'", whole .list)],
  rule "single_target" [
    ("single_subscript_attribute_target", same),
    ("NAME", same),
    ("'(' single_target ')'", pick 1)],
  rule "single_subscript_attribute_target" [
    ("t_primary '.' NAME !t_lookahead", named .attribute 2 [0]),
    ("t_primary '[' slices ']' !t_lookahead", whole .subscript)],
  growingRule "t_primary" [
    ("t_primary '.' NAME &t_lookahead", named .attribute 2 [0]),
    ("t_primary '[' slices ']' &t_lookahead", whole .subscript),
    ("t_primary genexp &t_lookahead", whole .call),
    ("t_primary '(' [arguments] ')' &t_lookahead", callNode),
    ("atom &t_lookahead", same)],
  rule "t_lookahead" (passing ["'('", "'['", "'.'"]),
  rule "del_targets" [("','.del_target+ [',']", pick 0)],
  keptRule "del_target" [
    ("t_primary '.' NAME !t_lookahead", named .attribute 2 [0]),
    ("t_primary '[' slices ']' !t_lookahead", whole .subscript),
    ("del_t_atom", same)],
  rule "del_t_atom" [
    ("NAME", same),
    ("'(' del_target ')'", pick 1),
    ("'(' [del_targets] ')'", whole .tuple),
    ("'[' [del_targets] ']'", whole .list)]]

/-- Positional arguments may not follow named ones. -/
private def misplaced : Action := fun _ ps =>
  let unpacked := (ps.getD 0 .absent).nodes.any fun t =>
    t.children.any fun a => a.kind == .keyword none
  .faultHere (if unpacked then "positional argument follows keyword argument unpacking"
    else "positional argument follows keyword argument")

/-- A generator may stand bare only as the single argument. -/
private def bareGenerator : Action := fun _ ps =>
  let arguments := (ps.getD 0 .absent).nodes.flatMap fun t =>
    t.children.filter fun a => !isKeyword a
  match arguments.getLast? with
  | some last =>
    if arguments.length ≤ 1 then .refuse
    else .faultAt "Generator expression must be parenthesized" last.line (some last.column)
  | none => .refuse

private def missingComma : Action := fun s ps =>
  if isOldStatement (ps.getD 0 .absent) || s.level == 0 then .refuse
  else complain 0 "invalid syntax. Perhaps you forgot a comma?" s ps

private def missingParentheses : Action := fun s ps =>
  if isOldStatement (ps.getD 0 .absent) then
    let n := nameOf (ps.getD 0 .absent)
    complain 0 s!"Missing parentheses in call to '{n}'. Did you mean {n}(...)?" s ps
  else .refuse

private def badKeyword : Action := fun s ps =>
  let word := match (ps.getD 0 .absent).marks with
    | t :: _ => String.ofList t.text
    | [] => ""
  complain 0 s!"cannot assign to {word}" s ps

private def missingColon : Action := fun _ ps =>
  match (ps.getD 0 .absent).nodes with
  | t :: _ => .faultAt "':' expected after dictionary key" t.line (some (Int.ofNat t.stop - 1))
  | [] => .refuse

private def assignmentHint : String :=
  "invalid syntax. Maybe you meant '==' or ':=' instead of '='?"

/-- What is wrong with expressions. -/
def expressionFaults : List RuleText := [
  rule "invalid_arguments" [
    ("args ',' '*'",
      complain 0 "iterable argument unpacking follows keyword argument unpacking"),
    ("expression for_if_clauses ',' [args | expression for_if_clauses]",
      complain 0 "Generator expression must be parenthesized"),
    ("NAME '=' expression for_if_clauses", complain 0 assignmentHint),
    ("args for_if_clauses", bareGenerator),
    ("args ',' expression for_if_clauses",
      complain 2 "Generator expression must be parenthesized"),
    ("args ',' args", misplaced)],
  rule "invalid_kwarg" [
    ("('True' | 'False' | 'None') '='", badKeyword),
    ("NAME '=' expression for_if_clauses", complain 0 assignmentHint),
    ("!(NAME '=') expression '='",
      complain 0 "expression cannot contain assignment, perhaps you meant \"==\"?")],
  ⟨"expression_without_invalid", .forgotten, [
    ("disjunction 'if' disjunction 'else' expression", condition),
    ("disjunction", same),
    ("lambdef", same)], true⟩,
  rule "invalid_legacy_expression" [("NAME !'(' star_expressions", missingParentheses)],
  rule "invalid_expression" [
    ("!(NAME STRING | SOFT_KEYWORD) disjunction expression_without_invalid", missingComma),
    ("disjunction 'if' disjunction !('else' | ':')",
      complain 0 "expected 'else' after 'if' expression")],
  keptRule "invalid_named_expression" [
    ("expression ':=' expression",
      complainOf 0 fun what => s!"cannot use assignment expressions with {what}"),
    ("NAME '=' bitwise_or !('=' | ':=')", complain 0 assignmentHint),
    ("!(list | tuple | genexp | 'True' | 'None' | 'False') bitwise_or '=' bitwise_or !('=' | ':=')",
      complainOf 0 fun what =>
        s!"cannot assign to {what} here. Maybe you meant '==' instead of '='?")],
  rule "invalid_comprehension" [
    ("('[' | '(' | '\x7b') starred_expression for_if_clauses",
      complain 1 "iterable unpacking cannot be used in comprehension"),
    ("('[' | '\x7b') star_named_expression ',' star_named_expressions for_if_clauses",
      complain 1 "did you forget parentheses around the comprehension target?"),
    ("('[' | '\x7b') star_named_expression ',' for_if_clauses",
      complain 1 "did you forget parentheses around the comprehension target?")],
  rule "invalid_dict_comprehension" [
    ("'\x7b' '**' bitwise_or for_if_clauses '\x7d'",
      complain 1 "dict unpacking cannot be used in dict comprehension")],
  rule "invalid_group" [
    ("'(' starred_expression ')'", complain 1 "cannot use starred expression here"),
    ("'(' '**' expression ')'", complain 1 "cannot use double starred expression here")],
  rule "invalid_double_starred_kvpairs" [
    ("','.double_starred_kvpair+ ',' invalid_kvpair", same),
    ("expression ':' '*' bitwise_or",
      complain 2 "cannot use a starred expression in a dictionary value"),
    ("expression ':' &('\x7d' | ',')",
      complain 1 "expression expected after dictionary key and ':'")],
  rule "invalid_kvpair" [
    ("expression !(':')", missingColon),
    ("expression ':' '*' bitwise_or",
      complain 2 "cannot use a starred expression in a dictionary value"),
    ("expression ':' &('\x7d' | ',')",
      complain 1 "expression expected after dictionary key and ':'")],
  rule "invalid_lambda_parameters" [
    ("lambda_param_no_default* invalid_lambda_parameters_helper lambda_param_no_default",
      complain 2 "non-default argument follows default argument"),
    ("lambda_param_no_default* '(' ','.lambda_param+ ','? ')'",
      complain 1 "Lambda expression parameters cannot be parenthesized"),
    ("'/' ','", complain 0 "at least one argument must precede /"),
    ("(lambda_slash_no_default | lambda_slash_with_default) lambda_param_maybe_default* '/'",
      complain 2 "/ may appear only once"),
    ("(lambda_slash_no_default | lambda_slash_with_default)? lambda_param_maybe_default* '*' (',' | lambda_param_no_default) lambda_param_maybe_default* '/'",
      complain 5 "/ must be ahead of *"),
    ("lambda_param_maybe_default+ '/' '*'", complain 2 "expected comma between / and *")],
  rule "invalid_lambda_parameters_helper" (passing ["lambda_slash_with_default",
    "lambda_param_with_default+"]),
  rule "invalid_lambda_star_etc" [
    ("'*' (':' | ',' (':' | '**'))", complainHere "named arguments must follow bare *"),
    ("'*' lambda_param '='", complain 2 "var-positional argument cannot have default value"),
    ("'*' (lambda_param_no_default | ',') lambda_param_maybe_default* '*' (lambda_param_no_default | ',')",
      complain 3 "* argument may appear only once")],
  rule "invalid_lambda_kwds" [
    ("'**' lambda_param '='", complain 2 "var-keyword argument cannot have default value"),
    ("'**' lambda_param ',' lambda_param",
      complain 3 "arguments cannot follow var-keyword argument"),
    ("'**' lambda_param ',' ('*' | '**' | '/')",
      complain 3 "arguments cannot follow var-keyword argument")]]

end RepairLoop.Python
