import Mathlib.Data.List.Induction
import RepairLoop.Proofs.Rust.Bodies
import RepairLoop.Proofs.Rust.Heads
import RepairLoop.Proofs.Rust.Mirror
/-!
# Functions — which functions are measured, and over what

A function item may be written in more ways than are looked for: its head may go on on the next
line, its name may be raw or start with a letter that is not a plain one, and its signature may
have braces and semicolons in brackets. Of a source in which no line has two items, the entry
of a line is settled by the item on it (`FunctionItem.exists_line`): it is absent or another one
where the head is not looked for, or where a semicolon stands in front of the first brace; otherwise
it holds the branches of whole lines (`FunctionItem.entries_of_sought`). These are those of the
body where no branch stands around it on its first and last line (`branchesOf_iff`).
-/

namespace RepairLoop.Rust

open Pattern

/-! ## Function items -/

/-- A character that starts a name: part of a word, and no digit. -/
def startsName (c : Char) : Bool := Text.isWordChar c && !c.isDigit

/-- A name: a word, or one that is marked as raw. -/
def IsName (name : List Char) : Prop :=
  ∃ word, (name = word ∨ name = 'r' :: '#' :: word) ∧ word.head?.any startsName = true ∧
    word.all Text.isWordChar = true

/-- A name of word characters, the first of them plain. -/
def PlainName (name : List Char) : Prop :=
  name.head?.any startsPlain = true ∧ name.all Text.isWordChar = true

instance (name : List Char) : Decidable (PlainName name) := inferInstanceAs (Decidable (_ ∧ _))

/-- A function item starts behind a text: the word `fn`, a blank and a name. -/
def StartsItem (before behind : List Char) : Prop :=
  endsInWord before = false ∧ behind.take 2 = ['f', 'n'] ∧
    (behind.drop 2).head?.any Text.isBlank = true ∧
    ((behind.drop 2).dropWhile Text.isBlank).head?.any startsName = true

instance (before behind : List Char) : Decidable (StartsItem before behind) :=
  inferInstanceAs (Decidable (_ ∧ _ ∧ _ ∧ _))

/-- No line has two function items: where two start, a line feed stands between. -/
def LoneItems (code : List Char) : Prop :=
  ∀ j < code.length, ∀ i < j,
    StartsItem (code.take i) (code.drop i) ∧ StartsItem (code.take j) (code.drop j) →
      '\n' ∈ (code.take j).drop i

instance (code : List Char) : Decidable (LoneItems code) :=
  inferInstanceAs (Decidable (∀ j < code.length, ∀ i < j, _ ∧ _ → _))

/-- A function item with a body: behind the name its signature, in which the brackets nest and no
brace opens outside of them, and in braces the body. -/
structure FunctionItem (code : List Char) where
  before : List Char
  gap : List Char
  name : List Char
  signature : List Char
  body : List Char
  after : List Char
  text : code = before ++ 'f' :: 'n' ::
    (gap ++ (name ++ (signature ++ '\x7b' :: (body ++ '\x7d' :: after))))
  word : endsInWord before = false
  gap_ne_nil : gap ≠ []
  gap_blank : gap.all Text.isBlank = true
  isName : IsName name
  name_ends : startsInWord signature = false
  name_whole : name = ['r'] → signature.head? ≠ some '#'
  signature_nested : Nested (brackets signature)
  body_first : ∀ k < signature.length, signature[k]? = some '\x7b' ∨ signature[k]? = some ';' →
    ¬Nested (brackets (signature.take k))
  body_nested : Nested (brackets body)

namespace FunctionItem

variable {code : List Char}

/-- The number of the line on which an item starts. -/
def line (f : FunctionItem code) : Nat := 1 + f.before.count '\n'

/-- What stands behind the name. -/
def behind (f : FunctionItem code) : List Char :=
  f.signature ++ '\x7b' :: (f.body ++ '\x7d' :: f.after)

/-- What stands between the name and the first brace. -/
def front (f : FunctionItem code) : List Char := f.behind.takeWhile (· != '\x7b')

end FunctionItem

theorem startsName_of_startsPlain {c : Char} (h : startsPlain c = true) : startsName c = true := by
  have hdigit : c.isDigit = false := by
    rcases Bool.or_eq_true_iff.1 h with halpha | hunder
    · rw [Text.isAlpha_eq] at halpha
      rw [Text.isDigit_eq, ← Bool.not_eq_true]
      simp only [Bool.or_eq_true, Bool.and_eq_true, decide_eq_true_eq] at halpha ⊢
      omega
    · rw [beq_iff_eq.1 hunder]
      rfl
  rw [startsName, isWordChar_of_startsPlain h, hdigit]
  rfl

theorem endsInWord_append {cs ds : List Char} (hcs : endsInWord cs = false)
    (hds : endsInWord ds = false) : endsInWord (cs ++ ds) = false := by
  by_cases hne : ds = []
  · rwa [hne, List.append_nil]
  · rwa [endsInWord_append_of_ne_nil hne]

/-- Where a function is found on a line, an item starts. -/
theorem startsItem_of_head {lead before rest : List Char} (hlead : endsInWord lead = false)
    (hword : endsInWord before = false) (hhead : (header? rest).isSome = true) (trail : List Char) :
    StartsItem (lead ++ before) (rest ++ trail) := by
  unfold header? at hhead
  split at hhead
  · rename_i rest
    split at hhead
    · rename_i h
      obtain ⟨hgap, hstart⟩ := h
      refine ⟨endsInWord_append hlead hword, rfl, ?_, ?_⟩
      · cases rest with
        | nil => exact absurd rfl hgap
        | cons c rest =>
          by_contra hc
          exact hgap (List.takeWhile_cons_of_neg hc)
      · show Option.any startsName ((rest ++ trail).dropWhile Text.isBlank).head? = true
        rw [List.dropWhile_append]
        cases hrest : rest.dropWhile Text.isBlank with
        | nil => rw [hrest] at hstart; cases hstart
        | cons c name =>
          rw [hrest] at hstart
          exact startsName_of_startsPlain hstart
    · cases hhead
  · cases hhead

/-- Two items start with a line feed between them, or at one place. -/
theorem LoneItems.eq_nil (before between rest : List Char)
    (h : LoneItems (before ++ (between ++ rest))) (hfeed : '\n' ∉ between)
    (hfirst : StartsItem before (between ++ rest)) (hsecond : StartsItem (before ++ between) rest) :
    between = [] := by
  by_contra hne
  have hrest : rest ≠ [] := by
    rintro rfl
    cases hsecond.2.1
  have hbetween := List.length_pos_iff.2 hne
  have hlength := List.length_pos_iff.2 hrest
  have hlast : (before ++ between).length < (before ++ (between ++ rest)).length := by
    simp only [List.length_append]
    omega
  have horder : before.length < (before ++ between).length := by
    rw [List.length_append]
    omega
  have hmem := h _ hlast _ horder
  rw [List.take_left' rfl, List.drop_left' rfl, ← List.append_assoc, List.take_left' rfl,
    List.drop_left' rfl, List.drop_left' rfl] at hmem
  exact hfeed (hmem ⟨hfirst, hsecond⟩)

/-- **One line holds one item.** -/
theorem LoneItems.cut_eq {lead line trail before rest before' rest' : List Char}
    (h : LoneItems (lead ++ (line ++ trail))) (hfeed : '\n' ∉ line) (hline : line = before ++ rest)
    (hline' : line = before' ++ rest') (hitem : StartsItem (lead ++ before) (rest ++ trail))
    (hitem' : StartsItem (lead ++ before') (rest' ++ trail)) : before = before' := by
  subst hline
  rcases List.append_eq_append_iff.1 hline' with ⟨between, rfl, rfl⟩ | ⟨between, rfl, rfl⟩
  · have hnil : between = [] := LoneItems.eq_nil (lead ++ before) between (rest' ++ trail)
      (by simpa using h) (fun hmem => hfeed (by simp [hmem])) (by simpa using hitem)
      (by simpa using hitem')
    rw [hnil, List.append_nil]
  · have hnil : between = [] := LoneItems.eq_nil (lead ++ before') between (rest ++ trail)
      (by simpa using h) (fun hmem => hfeed (by simp [hmem])) (by simpa using hitem')
      (by simpa using hitem)
    rw [hnil, List.append_nil]

theorem IsName.head {name : List Char} (h : IsName name) :
    ∃ c rest, name = c :: rest ∧ startsName c = true := by
  obtain ⟨word, rfl | rfl, hstart, -⟩ := h
  · cases name with
    | nil => cases hstart
    | cons c rest => exact ⟨c, rest, rfl, hstart⟩
  · exact ⟨'r', '#' :: word, rfl, by decide⟩

theorem not_isBlank_of_startsName {c : Char} (h : startsName c = true) :
    Text.isBlank c = false := by
  by_contra hblank
  rw [startsName, Text.not_isWordChar_of_isBlank (Bool.not_eq_false _ ▸ hblank)] at h
  cases h

/-- The last line of a text stands behind a line feed, or alone. -/
theorem exists_last_line (cs : List Char) :
    ∃ lead last front, cs = lead ++ last ∧ '\n' ∉ last ∧ endsInWord lead = false ∧
      Text.pieces '\n' cs = front ++ [last] := by
  induction cs using List.reverseRecOn with
  | nil => exact ⟨[], [], [], rfl, List.not_mem_nil, rfl, rfl⟩
  | append_singleton cs c ih =>
    obtain ⟨lead, last, front, hcs, hlast, hlead, hpieces⟩ := ih
    by_cases hc : c = '\n'
    · subst hc
      refine ⟨cs ++ ['\n'], [], front ++ [last], (List.append_nil _).symm, List.not_mem_nil,
        (endsInWord_concat ..).trans (by decide), ?_⟩
      rw [Text.pieces_append hpieces (Text.pieces_sep '\n' []), List.append_nil, List.append_assoc]
      rfl
    · refine ⟨lead, last ++ [c], front, by rw [hcs, List.append_assoc], by simp [hlast, Ne.symm hc],
        hlead, Text.pieces_append hpieces (Text.pieces_of_notMem (by simp [Ne.symm hc]))⟩

namespace FunctionItem

variable {code : List Char} (f : FunctionItem code)

theorem dropWhile_gap (rest : List Char) :
    (f.gap ++ (f.name ++ rest)).dropWhile Text.isBlank = f.name ++ rest := by
  obtain ⟨c, name, hname, hstart⟩ := f.isName.head
  rw [List.dropWhile_append_of_pos (List.all_eq_true.1 f.gap_blank), hname, List.cons_append,
    List.dropWhile_cons_of_neg (by rw [not_isBlank_of_startsName hstart]; exact Bool.false_ne_true)]

theorem takeWhile_gap (rest : List Char) :
    (f.gap ++ (f.name ++ rest)).takeWhile Text.isBlank = f.gap := by
  obtain ⟨c, name, hname, hstart⟩ := f.isName.head
  rw [List.takeWhile_append_of_pos (List.all_eq_true.1 f.gap_blank), hname, List.cons_append,
    List.takeWhile_cons_of_neg (by rw [not_isBlank_of_startsName hstart]; exact Bool.false_ne_true),
    List.append_nil]

theorem startsItem : StartsItem f.before ('f' :: 'n' :: (f.gap ++ (f.name ++ f.behind))) := by
  refine ⟨f.word, rfl, ?_, ?_⟩
  · obtain ⟨c, gap, hgap⟩ := List.exists_cons_of_ne_nil f.gap_ne_nil
    have hblank := List.all_eq_true.1 f.gap_blank c (by simp [hgap])
    simpa [hgap] using hblank
  · show Option.any startsName
      ((f.gap ++ (f.name ++ f.behind)).dropWhile Text.isBlank).head? = true
    obtain ⟨c, name, hname, hstart⟩ := f.isName.head
    rw [dropWhile_gap, hname]
    exact hstart

/-- **The line of an item**: the masked lines are those in front of it, its own with the item in the
middle, and those behind; nothing else on its line is taken for a function. -/
theorem exists_line (hlone : LoneItems code) :
    ∃ front start stop rest, Text.pieces '\n' code = front ++ (start ++ stop) :: rest ∧
      f.line = 1 + front.length ∧ endsInWord start = false ∧
      Text.pieces '\n' ('f' :: 'n' :: (f.gap ++ (f.name ++ f.behind))) = stop :: rest ∧
      OnlyHead start stop := by
  obtain ⟨lead, start, front, hbefore, hstart, hlead, hfront⟩ := exists_last_line f.before
  obtain ⟨stop, rest, hstop⟩ := List.exists_cons_of_ne_nil
    (Text.pieces_ne_nil '\n' ('f' :: 'n' :: (f.gap ++ (f.name ++ f.behind))))
  obtain ⟨trail, htrail⟩ := Text.pieces_prefix hstop
  have hstopfeed : '\n' ∉ stop := Text.notMem_of_mem_pieces (hstop ▸ List.mem_cons_self)
  have htext : code = lead ++ ((start ++ stop) ++ trail) := by
    rw [List.append_assoc, htrail, ← List.append_assoc, ← hbefore]
    exact f.text
  have hword : endsInWord start = false := by
    by_cases hne : start = []
    · rw [hne]
      rfl
    · have := f.word
      rwa [hbefore, endsInWord_append_of_ne_nil hne] at this
  refine ⟨front, start, stop, rest, ?_, ?_, hword, hstop,
    fun before behind hline hbefore' hhead => ?_⟩
  · rw [f.text]
    exact Text.pieces_append hfront hstop
  · have hlength := Text.length_pieces '\n' f.before
    rw [hfront, List.length_append] at hlength
    rw [line, ← Nat.add_right_cancel hlength]
  · have hitem := f.startsItem
    rw [hbefore, ← htrail] at hitem
    exact (htext ▸ hlone).cut_eq (by simp [hstart, hstopfeed]) hline rfl
      (startsItem_of_head hlead hbefore' hhead trail) hitem

/-- An item that is looked for: its head stands on the line on which it starts, and its name is
plain. -/
def Sought : Prop := '\n' ∉ f.gap ∧ PlainName f.name

instance : Decidable f.Sought := inferInstanceAs (Decidable (_ ∧ _))

/-- The entries of the masked lines for the line on which an item starts. -/
def entries : List (String × Nat × Nat) :=
  (functionBranches 1 (Text.pieces '\n' code)).filter fun entry => entry.2.1 == f.line

variable {f}

/-- In front of the first brace stands a part of the signature. -/
theorem front_prefix : f.front <+: f.signature := by
  rw [front, behind, List.takeWhile_append]
  split
  · have hall : ∀ rest, ('\x7b' :: rest).takeWhile (· != '\x7b') = [] := fun rest =>
      List.takeWhile_cons_of_neg (by simp)
    exact ⟨[], by rw [hall, List.append_nil, List.append_nil]⟩
  · exact List.takeWhile_prefix _

theorem exists_behind : ∃ more, f.behind.dropWhile (· != '\x7b') = '\x7b' :: more ∧
    f.behind = f.front ++ '\x7b' :: more := by
  have hsplit := List.takeWhile_append_dropWhile (p := (· != '\x7b')) (l := f.behind)
  have hhead := List.head?_dropWhile_not (· != '\x7b') f.behind
  cases hdrop : f.behind.dropWhile (· != '\x7b') with
  | nil =>
    have hmem : '\x7b' ∈ f.behind := by simp [behind]
    exact absurd (List.dropWhile_eq_nil_iff.1 hdrop _ hmem) (by simp)
  | cons c more =>
    rw [hdrop] at hhead
    obtain rfl : c = '\x7b' := by simpa using hhead
    exact ⟨more, rfl, by rw [← hsplit, hdrop, front]⟩

/-- **What is told of an item whose head is found**: nothing if a semicolon stands in front of its
first brace, and otherwise the branches of the text that is counted. -/
theorem bodyBranches_behind {line : List Char} {rest : List (List Char)}
    (h : Text.pieces '\n' f.behind = line :: rest) :
    bodyBranches ⟨0, false, false⟩ 0 (line :: rest) =
      if ';' ∈ f.front then none else some (branchCount (counted f.behind)) := by
  obtain ⟨more, hdrop, hbehind⟩ := f.exists_behind
  have hopening : '\x7b' ∉ f.front := fun hmem => by
    simpa using List.mem_takeWhile_imp hmem
  have hclosing := closing_notMem_of_prefix f.signature_nested f.front_prefix hopening
  have hstarted := @bodyBranches_started ⟨0, false, false⟩ 0 [] line rest f.front more
    List.not_mem_nil rfl
    (fun c hc => ⟨fun heq => hopening (heq ▸ hc), fun heq => hclosing (heq ▸ hc)⟩) (hbehind ▸ h)
  rw [List.nil_append] at hstarted
  rw [hstarted, counted, hdrop, List.nil_append, Nat.zero_add]
  rfl

theorem startsInWord_behind : startsInWord f.behind = false := by
  have hname := f.name_ends
  cases hsignature : f.signature with
  | nil =>
    rw [behind, hsignature, List.nil_append, startsInWord_cons]
    decide
  | cons c signature =>
    rw [hsignature, startsInWord_cons] at hname
    rwa [behind, hsignature, List.cons_append, startsInWord_cons]

theorem feed_notMem_name : '\n' ∉ f.name := by
  have hfeed : Text.isWordChar '\n' = false := by decide
  obtain ⟨word, hname, -, hword⟩ := f.isName
  have hnot : '\n' ∉ word := fun hmem => by
    simpa [hfeed] using List.all_eq_true.1 hword _ hmem
  rcases hname with hname | hname <;> simp [hname, hnot]

/-- The line of an item whose head stands on one line. -/
theorem pieces_of_gap (hgap : '\n' ∉ f.gap) {line : List Char} {rest : List (List Char)}
    (h : Text.pieces '\n' f.behind = line :: rest) :
    Text.pieces '\n' ('f' :: 'n' :: (f.gap ++ (f.name ++ f.behind))) =
      ('f' :: 'n' :: (f.gap ++ (f.name ++ line))) :: rest := by
  have hhead : '\n' ∉ 'f' :: 'n' :: (f.gap ++ f.name) := by
    simp [hgap, f.feed_notMem_name]
  have hpieces := Text.pieces_append
    ((Text.pieces_of_notMem hhead).trans (List.nil_append _).symm) h
  simpa using hpieces

theorem header?_of_gap (rest : List Char) :
    header? ('f' :: 'n' :: (f.gap ++ (f.name ++ rest))) =
      if f.name.head?.any startsPlain then some (f.gap, (f.name ++ rest).takeWhile Text.isWordChar)
      else none := by
  have hhead : (f.name ++ rest).head? = f.name.head? := by
    obtain ⟨c, name, hname, -⟩ := f.isName.head
    rw [hname]
    rfl
  simp only [header?, f.takeWhile_gap, f.dropWhile_gap, hhead, ne_eq, f.gap_ne_nil,
    not_false_eq_true, true_and]

/-- A head that goes on on the next line is none. -/
theorem header?_of_feed (hgap : '\n' ∈ f.gap) {stop : List Char} {rest : List (List Char)}
    (h : Text.pieces '\n' ('f' :: 'n' :: (f.gap ++ (f.name ++ f.behind))) = stop :: rest) :
    header? stop = none := by
  obtain ⟨gap, gap', hsplit, hfeed⟩ := List.eq_append_cons_of_mem hgap
  have htext : 'f' :: 'n' :: (f.gap ++ (f.name ++ f.behind)) =
      ('f' :: 'n' :: gap) ++ '\n' :: (gap' ++ (f.name ++ f.behind)) := by
    simp [hsplit]
  have hnone : ∀ c ∈ 'f' :: 'n' :: gap, (c == '\n') = false := fun c hc =>
    beq_eq_false_iff_ne.2 fun heq => by simp [heq, hfeed] at hc
  rw [htext, Text.pieces_append_cons _ _ _ hnone] at h
  obtain ⟨rfl, -⟩ := List.cons.inj h
  have hblank : gap.dropWhile Text.isBlank = [] :=
    List.dropWhile_eq_nil_iff.2 fun c hc =>
      List.all_eq_true.1 f.gap_blank c (by simp [hsplit, hc])
  simp [header?, hblank]

/-- **An item that is looked for has the entry** of what is counted. -/
theorem entries_of_sought (hlone : LoneItems code) (h : f.Sought) :
    f.entries = if ';' ∈ f.front then []
      else [(String.ofList f.name, f.line, branchCount (counted f.behind))] := by
  obtain ⟨hgap, hstart, hname⟩ := h
  obtain ⟨front, start, stop, rest, hcode, hline, hword, hstop, honly⟩ := f.exists_line hlone
  obtain ⟨line, lines, hbehind⟩ := List.exists_cons_of_ne_nil (Text.pieces_ne_nil '\n' f.behind)
  rw [pieces_of_gap hgap hbehind] at hstop
  obtain ⟨rfl, rfl⟩ := List.cons.inj hstop
  have htake : (f.name ++ line).takeWhile Text.isWordChar = f.name := by
    rw [List.takeWhile_append_of_pos (List.all_eq_true.1 hname)]
    cases hcons : line with
    | nil => rw [List.takeWhile_nil, List.append_nil]
    | cons c line' =>
      obtain ⟨trail, htrail⟩ := Text.pieces_prefix hbehind
      have hc := f.startsInWord_behind
      rw [← htrail, hcons, List.cons_append, startsInWord_cons] at hc
      rw [List.takeWhile_cons_of_neg (by simp [hc]), List.append_nil]
  have hhead := f.header?_of_gap line
  rw [if_pos hstart, htake] at hhead
  rw [entries, hcode, hline, filter_functionBranches, entryOf_of_head honly hword hhead,
    bodyBranches_behind hbehind]
  by_cases hend : ';' ∈ f.front
  · rw [if_pos hend, if_pos hend]
  · rw [if_neg hend, if_neg hend]

/-- **One that is not looked for has no entry** under its name. -/
theorem entries_of_not_sought (hlone : LoneItems code) (h : ¬f.Sought) (n : Nat) :
    f.entries ≠ [(String.ofList f.name, f.line, n)] := by
  obtain ⟨front, start, stop, rest, hcode, hline, hword, hstop, honly⟩ := f.exists_line hlone
  rw [entries, hcode, hline, filter_functionBranches]
  by_cases hgap : '\n' ∈ f.gap
  · rw [entryOf_of_noHead honly (header?_of_feed hgap hstop)]
    exact (List.cons_ne_nil _ _).symm
  obtain ⟨line, lines, hbehind⟩ := List.exists_cons_of_ne_nil (Text.pieces_ne_nil '\n' f.behind)
  rw [pieces_of_gap hgap hbehind] at hstop
  obtain ⟨rfl, rfl⟩ := List.cons.inj hstop
  have hhead := f.header?_of_gap line
  by_cases hstart : f.name.head?.any startsPlain = true
  · have hraw : ¬f.name.all Text.isWordChar = true := fun hname => h ⟨hgap, hstart, hname⟩
    obtain ⟨word, hword', -, hparts⟩ := f.isName
    obtain hname | hname := hword'
    · exact absurd (hname ▸ hparts) hraw
    have htake : (f.name ++ line).takeWhile Text.isWordChar = ['r'] := by
      rw [hname]
      rfl
    have htext : f.name ++ line = ['r'] ++ '#' :: (word ++ line) := by
      rw [hname]
      rfl
    rw [if_pos hstart, htake, htext] at hhead
    rw [htext] at honly ⊢
    rw [entryOf_of_head honly hword hhead]
    split
    · intro heq
      have hraw := congrArg String.toList (Prod.ext_iff.1 (List.singleton_inj.1 heq)).1
      rw [String.toList_ofList, String.toList_ofList, hname] at hraw
      cases hraw
    · exact (List.cons_ne_nil _ _).symm
  · rw [if_neg hstart] at hhead
    rw [entryOf_of_noHead honly hhead]
    exact (List.cons_ne_nil _ _).symm

/-- **An item has the entry of its body** where its head stands on one line, its name is plain, no
semicolon stands in front of the first brace, and as many branches are counted as the body has. -/
theorem entries_eq_iff (hlone : LoneItems code) :
    f.entries = [(String.ofList f.name, f.line, branchCount f.body)] ↔
      f.Sought ∧ ';' ∉ f.front ∧ branchCount (counted f.behind) = branchCount f.body := by
  by_cases hsought : f.Sought
  · rw [entries_of_sought hlone hsought]
    by_cases hend : ';' ∈ f.front <;> simp [hsought, hend]
  · exact iff_of_false (entries_of_not_sought hlone hsought _) fun h => hsought h.1

/-- Of a signature without braces, what is counted is its last line, the body, and what stands
behind the body until a line ends with no brace open. -/
theorem branchCount_counted (h : '\x7b' ∉ f.signature) :
    branchCount (counted f.behind) =
      branchCount (lastLine f.signature) + branchCount f.body +
        branchCount (untilClosed 0 f.after) := by
  have hnone : ∀ c ∈ f.signature, (c != '\x7b') = true := fun c hc =>
    bne_iff_ne.2 fun heq => h (heq ▸ hc)
  rw [counted, behind, List.takeWhile_append_of_pos hnone, List.dropWhile_append_of_pos hnone,
    List.takeWhile_cons_of_neg (by simp), List.dropWhile_cons_of_neg (by simp), List.append_nil,
    untilClosed_body f.body_nested, branchCount_append_opening, branchCount_append_closing,
    Nat.add_assoc]

end FunctionItem

end RepairLoop.Rust

namespace RepairLoop

open Rust

namespace Source

variable {path text : String} {settings : AnalysisSettings} {s : Source}

/-- The masked code of a source. -/
def code (s : Source) : List Char := ['\n'].intercalate (s.codeLines.map String.toList)

/-- The masked lines are those of the masked code. -/
theorem pieces_code (hrust : Language.ofPath path = .rust)
    (hread : read path text settings = .ok s) (hcode : s.code ≠ []) :
    Text.pieces '\n' s.code = s.codeLines.map String.toList := by
  refine Text.pieces_intercalate (fun hnil => hcode (by rw [code, hnil]; rfl)) fun line hline => ?_
  rw [shown_of_read hrust hread] at hline
  obtain ⟨_, hmem, rfl⟩ := List.mem_map.1 hline
  obtain ⟨shown, hshown, rfl⟩ := List.mem_map.1 hmem
  rw [String.toList_ofList]
  exact Text.notMem_of_mem_pieces (List.mem_of_mem_take hshown)

theorem branchesOf_rust (hrust : Language.ofPath path = .rust)
    (hread : read path text settings = .ok s) :
    Inspection.branchesOf s = functionBranches 1 (s.codeLines.map String.toList) := by
  rw [shown_of_read hrust hread]
  rfl

/-- **Main result.** In a source in Rust no line of which has two function items, an item is
measured over its body where its head stands on one line, its name is plain, no semicolon stands
between the name and the first brace, and the lines that are counted have as many branches as the
body. Without braces in the signature the last holds where no branch stands in the last line of
the signature, nor behind the body until a line ends with no brace open. -/
theorem branchesOf_iff (hrust : Language.ofPath path = .rust)
    (hread : read path text settings = .ok s) (hlone : LoneItems s.code) (f : FunctionItem s.code) :
    ((Inspection.branchesOf s).filter (fun entry => entry.2.1 == f.line) =
        [(String.ofList f.name, f.line, branchCount f.body)] ↔
      f.Sought ∧ ';' ∉ f.front ∧ branchCount (counted f.behind) = branchCount f.body) ∧
    ('\x7b' ∉ f.signature →
      (branchCount (counted f.behind) = branchCount f.body ↔
        branchCount (lastLine f.signature) = 0 ∧ branchCount (untilClosed 0 f.after) = 0)) := by
  have hcode : s.code ≠ [] := fun hnil => by simpa [hnil] using f.text
  constructor
  · rw [branchesOf_rust hrust hread, ← pieces_code hrust hread hcode]
    exact f.entries_eq_iff hlone
  · intro hbraces
    rw [FunctionItem.branchCount_counted hbraces]
    omega

theorem code_ofRust (path text : String) (settings : AnalysisSettings) (lines : List (List Char)) :
    (ofRust path text settings lines).code = ['\n'].intercalate lines := by
  simp [code, ofRust, Function.comp_def]

/-- A function with a branch in its body. -/
def oneFunction : String := "fn f(x: u8) \x7b\n    if x > 1 \x7b\x7d\n\x7d\n"

/-- The source that is read of it. -/
def oneSource : Source := ofRust "a.rs" oneFunction .usual
  ["fn f(x: u8) \x7b".toList, "    if x > 1 \x7b\x7d".toList, "\x7d".toList]

/-- The function in it. -/
def oneItem : FunctionItem oneSource.code where
  before := []
  gap := [' ']
  name := ['f']
  signature := "(x: u8) ".toList
  body := "\n    if x > 1 \x7b\x7d\n".toList
  after := []
  text := (code_ofRust ..).trans (by decide +kernel)
  word := rfl
  gap_ne_nil := by decide
  gap_blank := by decide
  isName := ⟨['f'], .inl rfl, by decide, by decide⟩
  name_ends := by decide +kernel
  name_whole := by decide
  signature_nested := by decide +kernel
  body_first := by decide +kernel
  body_nested := by decide +kernel

theorem branchesOf_iff_oneItem : Language.ofPath "a.rs" = .rust ∧
    read "a.rs" oneFunction .usual = .ok oneSource ∧ LoneItems oneSource.code ∧
    oneItem.Sought ∧ ';' ∉ oneItem.front ∧ '\x7b' ∉ oneItem.signature ∧
    branchCount (lastLine oneItem.signature) = 0 ∧ branchCount (untilClosed 0 oneItem.after) = 0 ∧
    (Inspection.branchesOf oneSource).filter (fun entry => entry.2.1 == oneItem.line) =
      [(String.ofList oneItem.name, oneItem.line, branchCount oneItem.body)] ∧
    branchCount oneItem.body = 1 := by
  have hrust : Language.ofPath "a.rs" = .rust := by decide
  have hread : read "a.rs" oneFunction .usual = .ok oneSource := by
    rw [read_rust hrust]
    rfl
  have hlone : LoneItems oneSource.code := by
    rw [oneSource, code_ofRust]
    decide +kernel
  have hsought : oneItem.Sought := by decide +kernel
  have hend : ';' ∉ oneItem.front := by decide +kernel
  have hbraces : '\x7b' ∉ oneItem.signature := by decide +kernel
  have hsignature : branchCount (lastLine oneItem.signature) = 0 := by decide +kernel
  have hafter : branchCount (untilClosed 0 oneItem.after) = 0 := by decide +kernel
  obtain ⟨hentry, hcounted⟩ := branchesOf_iff hrust hread hlone oneItem
  exact ⟨hrust, hread, hlone, hsought, hend, hbraces, hsignature, hafter,
    hentry.2 ⟨hsought, hend, (hcounted hbraces).2 ⟨hsignature, hafter⟩⟩, by decide +kernel⟩

/-- A function that takes an array, and one with a call of a macro behind its body. -/
def twoFunctions : String :=
  "fn f(_: [T; 1]) \x7b if a \x7b\x7d \x7d\nfn g() \x7b\x7d m!(a && b);\n"

/-- The source that is read of them. -/
def twoSource : Source := ofRust "a.rs" twoFunctions .usual
  ["fn f(_: [T; 1]) \x7b if a \x7b\x7d \x7d".toList, "fn g() \x7b\x7d m!(a && b);".toList]

/-- The first of them. -/
def arrayItem : FunctionItem twoSource.code where
  before := []
  gap := [' ']
  name := ['f']
  signature := "(_: [T; 1]) ".toList
  body := " if a \x7b\x7d ".toList
  after := "\nfn g() \x7b\x7d m!(a && b);".toList
  text := (code_ofRust ..).trans (by decide +kernel)
  word := rfl
  gap_ne_nil := by decide
  gap_blank := by decide
  isName := ⟨['f'], .inl rfl, by decide, by decide⟩
  name_ends := by decide +kernel
  name_whole := by decide
  signature_nested := by decide +kernel
  body_first := by decide +kernel
  body_nested := by decide +kernel

/-- The second of them. -/
def macroItem : FunctionItem twoSource.code where
  before := "fn f(_: [T; 1]) \x7b if a \x7b\x7d \x7d\n".toList
  gap := [' ']
  name := ['g']
  signature := "() ".toList
  body := []
  after := " m!(a && b);".toList
  text := (code_ofRust ..).trans (by decide +kernel)
  word := by decide +kernel
  gap_ne_nil := by decide
  gap_blank := by decide
  isName := ⟨['g'], .inl rfl, by decide, by decide⟩
  name_ends := by decide +kernel
  name_whole := by decide
  signature_nested := by decide +kernel
  body_first := by decide +kernel
  body_nested := by decide +kernel

set_option maxRecDepth 1500 in
/-- The semicolon of an array ends the search for a body, and what stands behind a body on its last
line is counted with it: of two functions the first has no entry, and the second one a branch
that it does not have. -/
theorem branchesOf_twoFunctions : Language.ofPath "a.rs" = .rust ∧
    read "a.rs" twoFunctions .usual = .ok twoSource ∧ LoneItems twoSource.code ∧
    arrayItem.line = 1 ∧ branchCount arrayItem.body = 1 ∧
    macroItem.line = 2 ∧ branchCount macroItem.body = 0 ∧
    Inspection.branchesOf twoSource = [("g", 2, 1)] := by
  have hrust : Language.ofPath "a.rs" = .rust := by decide
  have hread : read "a.rs" twoFunctions .usual = .ok twoSource := by
    rw [read_rust hrust]
    rfl
  have hlone : LoneItems twoSource.code := by
    rw [twoSource, code_ofRust]
    decide +kernel
  exact ⟨hrust, hread, hlone, by decide +kernel, by decide +kernel, by decide +kernel,
    by decide +kernel, by decide +kernel⟩

end Source

end RepairLoop
