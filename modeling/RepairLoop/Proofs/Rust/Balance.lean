import RepairLoop.Proofs.Steps
import RepairLoop.Rust.Source
/-!
# Balance — the brackets of a text and the words that nest

`balance` keeps the brackets that are open on a stack. Beside it stands the grammar of the words
that nest (`Nested`), which knows of no stack. What is open behind a stretch (`openBehind`) ties
the two: a word that nests leaves the stack as it finds it (`Nested.openBehind`), and a stretch
that empties a stack is made of words that nest and of the brackets that close the open ones
(`settles_of_openBehind`). So the words that pass are those that nest, and a fault is told with the
first bracket behind which no word can be finished, or with the last one that is never closed
(`balance_iff`).
-/

namespace RepairLoop.Rust

/-! ## Words that nest -/

/-- A bracket and the one that closes it. -/
def Pair (o c : Char) : Prop := (o, c) ∈ [('(', ')'), ('[', ']'), ('\x7b', '\x7d')]

instance (o c : Char) : Decidable (Pair o c) := inferInstanceAs (Decidable (_ ∈ _))

/-- Brackets of three kinds, each closed by one of its kind around what nests in turn. -/
inductive Nested : List Char → Prop
  /-- Nothing nests. -/
  | nil : Nested []
  /-- A pair around a word that nests, in front of another one. -/
  | pair {o c : Char} {inner rest : List Char} :
      Pair o c → Nested inner → Nested rest → Nested (o :: (inner ++ c :: rest))

/-- Some more brackets make a word that nests of these. -/
def Extendable (cs : List Char) : Prop := ∃ more, Nested (cs ++ more)

theorem Nested.append {cs ds : List Char} (hcs : Nested cs) (hds : Nested ds) :
    Nested (cs ++ ds) := by
  induction hcs with
  | nil => exact hds
  | pair hpair hinner _ _ ihrest =>
    rw [List.cons_append, List.append_assoc, List.cons_append]
    exact .pair hpair hinner ihrest

/-- A word that nests stands around others: one word in a pair. -/
theorem Nested.around {o c : Char} {inner : List Char} (hpair : Pair o c) (h : Nested inner) :
    Nested (o :: (inner ++ [c])) :=
  .pair hpair h .nil

theorem Nested.extendable {cs : List Char} (h : Nested cs) : Extendable cs :=
  ⟨[], by rwa [List.append_nil]⟩

theorem Extendable.of_prefix {cs ds : List Char} (h : Extendable ds) (hle : cs <+: ds) :
    Extendable cs := by
  obtain ⟨rest, rfl⟩ := hle
  obtain ⟨more, hmore⟩ := h
  exact ⟨rest ++ more, by rwa [← List.append_assoc]⟩

/-! ## Brackets in pairs -/

theorem pair_iff {o c : Char} :
    Pair o c ↔ isOpening o = true ∧ isClosing c = true ∧ openingOf c = o := by
  constructor
  · intro h
    simp only [Pair, List.mem_cons, Prod.mk.injEq, List.not_mem_nil, or_false] at h
    rcases h with ⟨rfl, rfl⟩ | ⟨rfl, rfl⟩ | ⟨rfl, rfl⟩ <;> decide
  · rintro ⟨-, hc, rfl⟩
    simp only [isClosing, Bool.or_eq_true, beq_iff_eq] at hc
    rcases hc with (rfl | rfl) | rfl <;> decide

/-- Each opening bracket is closed by one. -/
theorem exists_pair {o : Char} (h : isOpening o = true) : ∃ c, Pair o c := by
  simp only [isOpening, Bool.or_eq_true, beq_iff_eq] at h
  rcases h with (rfl | rfl) | rfl
  · exact ⟨')', by decide⟩
  · exact ⟨']', by decide⟩
  · exact ⟨'\x7d', by decide⟩

theorem isOpening_openingOf (c : Char) : isOpening (openingOf c) = true := by
  unfold openingOf
  split
  · rfl
  split <;> rfl

theorem not_isOpening_of_isClosing {c : Char} (h : isClosing c = true) : isOpening c = false := by
  simp only [isClosing, Bool.or_eq_true, beq_iff_eq] at h
  rcases h with (rfl | rfl) | rfl <;> decide

namespace Delimiter

/-- A bracket that opens or closes. -/
def IsBracket (d : Delimiter) : Prop := isOpening d.char = true ∨ isClosing d.char = true

instance (d : Delimiter) : Decidable d.IsBracket := inferInstanceAs (Decidable (_ ∨ _))

end Delimiter

/-- The characters of some brackets. -/
def chars (ds : List Delimiter) : List Char := ds.map Delimiter.char

@[simp] theorem chars_nil : chars [] = [] := rfl

@[simp] theorem chars_cons (d : Delimiter) (ds : List Delimiter) :
    chars (d :: ds) = d.char :: chars ds := rfl

@[simp] theorem chars_append (ds es : List Delimiter) : chars (ds ++ es) = chars ds ++ chars es :=
  List.map_append

/-! ## What is open behind a stretch -/

/-- What is open behind one more bracket; one that closes none of its kind is the fault. -/
def openNext (stack : List Delimiter) (d : Delimiter) : Except Delimiter (List Delimiter) :=
  if isOpening d.char then .ok (d :: stack)
  else
    match stack with
    | top :: rest => if top.char == openingOf d.char then .ok rest else .error d
    | [] => .error d

/-- The brackets that are open behind a stretch, the last first. -/
def openBehind (stack ds : List Delimiter) : Except Delimiter (List Delimiter) :=
  ds.foldlM openNext stack

@[simp] theorem openBehind_nil (stack : List Delimiter) : openBehind stack [] = .ok stack := rfl

theorem openBehind_cons (stack : List Delimiter) (d : Delimiter) (ds : List Delimiter) :
    openBehind stack (d :: ds) = openNext stack d >>= fun next => openBehind next ds := rfl

theorem openBehind_append (stack ds es : List Delimiter) :
    openBehind stack (ds ++ es) = openBehind stack ds >>= fun next => openBehind next es :=
  List.foldlM_append

theorem openNext_opening {d : Delimiter} (h : isOpening d.char = true) (stack : List Delimiter) :
    openNext stack d = .ok (d :: stack) :=
  if_pos h

theorem openNext_pair {o d : Delimiter} (h : Pair o.char d.char) (stack : List Delimiter) :
    openNext (o :: stack) d = .ok stack := by
  obtain ⟨-, hclosing, hkind⟩ := pair_iff.1 h
  simp [openNext, not_isOpening_of_isClosing hclosing, hkind]

/-- **What one bracket does**: an opening one goes on the stack, and a closing one takes off the
bracket that it closes. -/
theorem openNext_eq_ok {stack next : List Delimiter} {d : Delimiter} (hd : d.IsBracket) :
    openNext stack d = .ok next ↔
      (isOpening d.char = true ∧ next = d :: stack) ∨
        ∃ o, Pair o.char d.char ∧ stack = o :: next := by
  constructor
  · intro h
    by_cases hopen : isOpening d.char = true
    · rw [openNext_opening hopen] at h
      exact .inl ⟨hopen, (Except.ok.inj h).symm⟩
    have hclosing := hd.resolve_left hopen
    rw [openNext.eq_def, if_neg hopen] at h
    match stack with
    | [] => cases h
    | top :: rest =>
      simp only [beq_iff_eq] at h
      split at h
      · rename_i hkind
        obtain rfl := Except.ok.inj h
        refine .inr ⟨top, pair_iff.2 ⟨?_, hclosing, hkind.symm⟩, rfl⟩
        rw [hkind, isOpening_openingOf]
      · cases h
  · rintro (⟨hopen, rfl⟩ | ⟨o, hpair, rfl⟩)
    · exact openNext_opening hopen stack
    · exact openNext_pair hpair next

/-- **Balancing is reading to the end**: the stack must be empty there. -/
theorem balance_eq (stack ds : List Delimiter) :
    balance stack ds =
      match openBehind stack ds with
      | .ok [] => .ok ()
      | .ok (d :: _) => .error (.unclosed d)
      | .error d => .error (.unexpected d) := by
  fun_induction balance stack ds with
  | case1 => rfl
  | case2 d rest => rfl
  | case3 stack d rest hopen ih =>
    rw [ih, openBehind_cons, openNext_opening hopen]
    rfl
  | case4 d rest hopen top stack hkind ih =>
    rw [ih, openBehind_cons, openNext.eq_def, if_neg hopen]
    simp only [if_pos hkind]
    rfl
  | case5 d rest hopen top stack hkind =>
    rw [openBehind_cons, openNext.eq_def, if_neg hopen]
    simp only [if_neg hkind]
    rfl
  | case6 d rest hopen =>
    rw [openBehind_cons, openNext.eq_def, if_neg hopen]
    rfl

/-! ## The stack and the grammar -/

variable {stack ds : List Delimiter} {d : Delimiter}

/-- **A word that nests leaves the stack as it finds it.** -/
theorem Nested.openBehind {word : List Char} (h : Nested word) (hds : chars ds = word)
    (stack : List Delimiter) : openBehind stack ds = .ok stack := by
  induction h generalizing ds stack with
  | nil =>
    obtain rfl := List.map_eq_nil_iff.1 hds
    rfl
  | pair hpair _ _ ihinner ihrest =>
    obtain ⟨o, more, rfl, rfl, hmore⟩ := List.map_eq_cons_iff.1 hds
    obtain ⟨is, es, rfl, his, hes⟩ := List.map_eq_append_iff.1 hmore
    obtain ⟨c, rs, rfl, rfl, hrs⟩ := List.map_eq_cons_iff.1 hes
    rw [openBehind_cons, openNext_opening (pair_iff.1 hpair).1]
    show Rust.openBehind (o :: stack) (is ++ c :: rs) = .ok stack
    rw [openBehind_append, ihinner his]
    show Rust.openBehind (o :: stack) (c :: rs) = .ok stack
    rw [openBehind_cons, openNext_pair hpair]
    exact ihrest hrs stack

/-- What empties a stack: words that nest, with the brackets between them that close the open
ones. -/
inductive Settles : List Delimiter → List Char → Prop
  /-- Nothing is open, and the rest nests. -/
  | nil {word : List Char} : Nested word → Settles [] word
  /-- The last bracket that is open is closed behind a word that nests. -/
  | cons {o : Delimiter} {c : Char} {stack : List Delimiter} {word rest : List Char} :
      Pair o.char c → Nested word → Settles stack rest → Settles (o :: stack) (word ++ c :: rest)

theorem Settles.nested_append {word rest : List Char} (hword : Nested word)
    (h : Settles stack rest) : Settles stack (word ++ rest) := by
  cases h with
  | nil hrest => exact .nil (hword.append hrest)
  | cons hpair hinner hrest =>
    rw [← List.append_assoc]
    exact .cons hpair (hword.append hinner) hrest

/-- An open bracket with what closes it is one more word that nests. -/
theorem Settles.opened {word : List Char} (h : Settles (d :: stack) word) :
    Settles stack (d.char :: word) := by
  cases h with
  | cons hpair hinner hrest =>
    have hround := hrest.nested_append (hinner.around hpair)
    rwa [List.cons_append, List.append_assoc] at hround

/-- **What empties a stack settles it.** -/
theorem settles_of_openBehind (hds : ∀ d ∈ ds, d.IsBracket) (h : openBehind stack ds = .ok []) :
    Settles stack (chars ds) := by
  induction ds generalizing stack with
  | nil =>
    obtain rfl : stack = [] := Except.ok.inj h
    exact .nil .nil
  | cons d ds ih =>
    obtain ⟨next, hnext, hrest⟩ := ok_of_bind h
    have hsettles := ih (fun e he => hds e (List.mem_cons_of_mem d he)) hrest
    rcases (openNext_eq_ok (hds d List.mem_cons_self)).1 hnext with ⟨-, rfl⟩ | ⟨o, hpair, rfl⟩
    · exact hsettles.opened
    · exact @Settles.cons o d.char next [] _ hpair .nil hsettles

theorem nested_iff (hds : ∀ d ∈ ds, d.IsBracket) :
    Nested (chars ds) ↔ openBehind [] ds = .ok [] := by
  constructor
  · exact fun h => h.openBehind rfl []
  · intro h
    cases settles_of_openBehind hds h with
    | nil hnested => exact hnested

/-- **Where a bracket on the stack stands**: what was open before it is below it, and what has come
since nests. -/
theorem exists_of_openBehind_cons (hds : ∀ d ∈ ds, d.IsBracket)
    (h : openBehind [] ds = .ok (d :: stack)) :
    ∃ pre post, ds = pre ++ d :: post ∧ isOpening d.char = true ∧
      openBehind [] pre = .ok stack ∧ Nested (chars post) := by
  -- the last bracket is the one, or closes one in front of which the one stands
  induction hn : ds.length using Nat.strongRecOn generalizing ds d stack with
  | ind n ih =>
    obtain rfl | ⟨es, e, rfl⟩ := List.eq_nil_or_concat ds
    · cases h
    rw [List.concat_eq_append] at *
    have hes : ∀ x ∈ es, x.IsBracket := fun x hx => hds x (List.mem_append_left _ hx)
    rw [openBehind_append] at h
    obtain ⟨before, hbefore, h⟩ := ok_of_bind h
    rw [openBehind_cons] at h
    obtain ⟨behind, hbehind, h⟩ := ok_of_bind h
    obtain rfl : behind = d :: stack := Except.ok.inj h
    have he : e.IsBracket := hds e (List.mem_append_right es List.mem_cons_self)
    rw [List.length_append, List.length_singleton] at hn
    rcases (openNext_eq_ok he).1 hbehind with ⟨hopen, hnext⟩ | ⟨o, hpair, rfl⟩
    · obtain ⟨rfl, rfl⟩ := List.cons.inj hnext
      exact ⟨es, [], rfl, hopen, hbefore, .nil⟩
    · obtain ⟨pre, inner, rfl, -, hpre, hinner⟩ := ih es.length (by omega) hes hbefore rfl
      rw [List.length_append, List.length_cons] at hn
      obtain ⟨pre', post, rfl, hopen, hpre', hpost⟩ :=
        ih pre.length (by omega) (fun x hx => hes x (List.mem_append_left _ hx)) hpre rfl
      refine ⟨pre', post ++ o :: (inner ++ [e]), by simp, hopen, hpre', ?_⟩
      rw [chars_append, chars_cons, chars_append]
      exact hpost.append (hinner.around hpair)

theorem extendable_of_openBehind (hds : ∀ d ∈ ds, d.IsBracket)
    (h : openBehind [] ds = .ok stack) : Extendable (chars ds) := by
  induction stack generalizing ds with
  | nil => exact ((nested_iff hds).2 h).extendable
  | cons d stack ih =>
    obtain ⟨-, -, -, hopen, -⟩ := exists_of_openBehind_cons hds h
    obtain ⟨c, hpair⟩ := exists_pair hopen
    have hclosed : openBehind [] (ds ++ [⟨c, 0, 0⟩]) = .ok stack := by
      rw [openBehind_append, h]
      show openNext (d :: stack) ⟨c, 0, 0⟩ >>= _ = _
      rw [openNext_pair hpair]
      rfl
    have hbrackets : ∀ x ∈ ds ++ [⟨c, 0, 0⟩], x.IsBracket := by
      intro x hx
      rcases List.mem_append.1 hx with hx | hx
      · exact hds x hx
      · obtain rfl := List.mem_singleton.1 hx
        exact .inr (pair_iff.1 hpair).2.1
    exact Extendable.of_prefix (ih hbrackets hclosed) (by simp)

/-- **A stretch can be finished** where its brackets are read without a fault. -/
theorem extendable_iff (hds : ∀ d ∈ ds, d.IsBracket) :
    Extendable (chars ds) ↔ ∃ stack, openBehind [] ds = .ok stack := by
  constructor
  · rintro ⟨more, h⟩
    have hmore : chars (more.map fun c => ⟨c, 0, 0⟩) = more := by
      simp [chars, Function.comp_def]
    have hchars : chars (ds ++ more.map fun c => ⟨c, 0, 0⟩) = chars ds ++ more := by
      rw [chars_append, hmore]
    have hread := h.openBehind hchars []
    rw [openBehind_append] at hread
    obtain ⟨stack, hstack, -⟩ := ok_of_bind hread
    exact ⟨stack, hstack⟩
  · rintro ⟨stack, h⟩
    exact extendable_of_openBehind hds h

/-! ## Where the fault is -/

/-- The first bracket behind which no word can be finished. -/
def FirstBroken (ds : List Delimiter) (d : Delimiter) : Prop :=
  ∃ pre post, ds = pre ++ d :: post ∧ (∀ p, p <+: pre → Extendable (chars p)) ∧
    ¬Extendable (chars (pre ++ [d]))

/-- An opening bracket that is not closed in what stands behind it: no bracket behind a word that
nests closes it. -/
def Unmatched (d : Delimiter) (behind : List Delimiter) : Prop :=
  isOpening d.char = true ∧
    ∀ inner c rest, behind = inner ++ c :: rest → Nested (chars inner) → ¬Pair d.char c.char

/-- The last opening bracket that is left unmatched. -/
def LastUnmatched (ds : List Delimiter) (d : Delimiter) : Prop :=
  ∃ pre post, ds = pre ++ d :: post ∧ Unmatched d post ∧
    ∀ pre' e post', post = pre' ++ e :: post' → ¬Unmatched e post'

theorem openNext_error {e : Delimiter} (h : openNext stack d = .error e) : e = d := by
  rw [openNext.eq_def] at h
  split at h
  · cases h
  · split at h
    · split at h
      · cases h
      · exact (Except.error.inj h).symm
    · exact (Except.error.inj h).symm

/-- **The bracket of a fault** is the first that does not fit what is open in front of it. -/
theorem exists_of_openBehind_error (h : openBehind stack ds = .error d) :
    ∃ pre post next, ds = pre ++ d :: post ∧ openBehind stack pre = .ok next ∧
      openNext next d = .error d := by
  induction ds generalizing stack with
  | nil => cases h
  | cons e es ih =>
    rw [openBehind_cons] at h
    cases hnext : openNext stack e with
    | error f =>
      rw [hnext] at h
      obtain rfl : f = d := Except.error.inj h
      obtain rfl : f = e := openNext_error hnext
      exact ⟨[], es, stack, rfl, rfl, hnext⟩
    | ok next =>
      rw [hnext] at h
      obtain ⟨pre, post, last, rfl, hpre, herror⟩ := ih h
      refine ⟨e :: pre, post, last, rfl, ?_, herror⟩
      rw [openBehind_cons, hnext]
      exact hpre

theorem firstBroken_of_openBehind (hds : ∀ d ∈ ds, d.IsBracket)
    (h : openBehind [] ds = .error d) : FirstBroken ds d := by
  obtain ⟨pre, post, next, rfl, hpre, herror⟩ := exists_of_openBehind_error h
  have hsplit : pre ++ d :: post = (pre ++ [d]) ++ post := by simp
  have hfirst : ∀ x ∈ pre ++ [d], x.IsBracket := fun x hx =>
    hds x (hsplit ▸ List.mem_append_left post hx)
  have hbefore : ∀ x ∈ pre, x.IsBracket := fun x hx => hfirst x (List.mem_append_left _ hx)
  refine ⟨pre, post, rfl, fun p hp => ?_, fun hextend => ?_⟩
  · exact Extendable.of_prefix (extendable_of_openBehind hbefore hpre) (hp.map _)
  · obtain ⟨stack, hread⟩ := (extendable_iff hfirst).1 hextend
    rw [openBehind_append, hpre] at hread
    replace hread : openBehind next [d] = .ok stack := hread
    rw [openBehind_cons, herror] at hread
    cases hread

/-- **In a word that nests no bracket is left unmatched.** -/
theorem Nested.not_unmatched {pre post : List Delimiter}
    (hds : ∀ x ∈ pre ++ d :: post, x.IsBracket) (h : Nested (chars (pre ++ d :: post))) :
    ¬Unmatched d post := by
  rintro ⟨hopen, hnone⟩
  have hempty := (nested_iff hds).1 h
  rw [openBehind_append] at hempty
  obtain ⟨before, -, hempty⟩ := ok_of_bind hempty
  rw [openBehind_cons, openNext_opening hopen] at hempty
  have hpost : ∀ x ∈ post, x.IsBracket := fun x hx => hds x (by simp [hx])
  have hsettles : Settles (d :: before) (chars post) := settles_of_openBehind hpost hempty
  generalize hword : chars post = word at hsettles
  cases hsettles with
  | cons hpair hinner hrest =>
    obtain ⟨inner, cs, rfl, rfl, hcs⟩ := List.map_eq_append_iff.1 hword
    obtain ⟨c, rest, rfl, rfl, -⟩ := List.map_eq_cons_iff.1 hcs
    exact hnone inner c rest rfl hinner hpair

/-- **The bracket on top of the stack at the end is the last that is left unmatched.** -/
theorem lastUnmatched_of_openBehind (hds : ∀ d ∈ ds, d.IsBracket)
    (h : openBehind [] ds = .ok (d :: stack)) : LastUnmatched ds d := by
  obtain ⟨pre, post, rfl, hopen, -, hpost⟩ := exists_of_openBehind_cons hds h
  have hread (stack : List Delimiter) : openBehind stack post = .ok stack :=
    hpost.openBehind rfl stack
  refine ⟨pre, post, rfl, ⟨hopen, ?_⟩, ?_⟩
  · -- a bracket that closes it would be one too many in what nests behind it
    rintro inner c rest rfl hinner hpair
    obtain ⟨-, hclosing, -⟩ := pair_iff.1 hpair
    have hempty := hread []
    rw [openBehind_append, hinner.openBehind rfl] at hempty
    replace hempty : openBehind [] (c :: rest) = .ok [] := hempty
    rw [openBehind_cons, openNext.eq_def, not_isOpening_of_isClosing hclosing] at hempty
    cases hempty
  · -- what nests settles each of its own opening brackets
    rintro pre' e post' rfl
    exact hpost.not_unmatched fun x hx => hds x (by simp [hx])

theorem FirstBroken.not_extendable (h : FirstBroken ds d) : ¬Extendable (chars ds) := by
  obtain ⟨pre, post, rfl, -, hbroken⟩ := h
  refine fun hextend => hbroken (hextend.of_prefix ?_)
  exact ((List.prefix_append (pre ++ [d]) post).trans (by simp)).map _

/-- There is one first bracket behind which no word can be finished. -/
theorem FirstBroken.unique {e : Delimiter} (h : FirstBroken ds d) (h' : FirstBroken ds e) :
    d = e := by
  obtain ⟨pre, post, rfl, hbefore, hbroken⟩ := h
  obtain ⟨pre', post', hds, hbefore', hbroken'⟩ := h'
  rcases List.append_eq_append_iff.1 hds with ⟨more, rfl, hmore⟩ | ⟨more, rfl, hmore⟩
  · cases more with
    | nil => exact (List.cons.inj hmore).1
    | cons x more =>
      obtain ⟨rfl, -⟩ := List.cons.inj hmore
      exact absurd (hbefore' _ ⟨more, by simp⟩) hbroken
  · cases more with
    | nil => exact (List.cons.inj hmore).1.symm
    | cons x more =>
      obtain ⟨rfl, -⟩ := List.cons.inj hmore
      exact absurd (hbefore _ ⟨more, by simp⟩) hbroken'

/-- There is one last opening bracket that is left unmatched. -/
theorem LastUnmatched.unique {e : Delimiter} (h : LastUnmatched ds d) (h' : LastUnmatched ds e) :
    d = e := by
  obtain ⟨pre, post, rfl, hopen, hlast⟩ := h
  obtain ⟨pre', post', hds, hopen', hlast'⟩ := h'
  rcases List.append_eq_append_iff.1 hds with ⟨more, rfl, hmore⟩ | ⟨more, rfl, hmore⟩
  · cases more with
    | nil => exact (List.cons.inj hmore).1
    | cons x more =>
      obtain ⟨rfl, rfl⟩ := List.cons.inj hmore
      exact absurd hopen' (hlast more e post' rfl)
  · cases more with
    | nil => exact (List.cons.inj hmore).1.symm
    | cons x more =>
      obtain ⟨rfl, rfl⟩ := List.cons.inj hmore
      exact absurd hopen (hlast' more d post rfl)

/-- **Main result.** Some brackets pass exactly where they are a word that nests. The fault is
otherwise the first bracket behind which no word can be finished; or every stretch from the start
can be finished, and the fault is the last opening bracket that is left unmatched. It is told with
the place of this bracket. -/
theorem balance_iff (hds : ∀ d ∈ ds, d.IsBracket) :
    (balance [] ds = .ok () ↔ Nested (chars ds)) ∧
      ∀ f, balance [] ds = .error f ↔
        (∃ d, f = .unexpected d ∧ f.place = (d.line, d.column) ∧ FirstBroken ds d) ∨
          ∃ d, f = .unclosed d ∧ f.place = (d.line, d.column) ∧
            (∀ p, p <+: ds → Extendable (chars p)) ∧ LastUnmatched ds d := by
  rw [balance_eq, nested_iff hds]
  cases hread : openBehind [] ds with
  | error d =>
    have hbroken := firstBroken_of_openBehind hds hread
    refine ⟨by simp, fun f => ⟨?_, ?_⟩⟩
    · intro h
      obtain rfl := Except.error.inj h
      exact .inl ⟨d, rfl, rfl, hbroken⟩
    · rintro (⟨e, rfl, -, he⟩ | ⟨e, rfl, -, hextend, -⟩)
      · rw [hbroken.unique he]
      · exact absurd (hextend ds (List.prefix_refl ds)) hbroken.not_extendable
  | ok stack =>
    have hextend : Extendable (chars ds) := extendable_of_openBehind hds hread
    cases stack with
    | nil =>
      refine ⟨by simp, fun f => ⟨fun h => by simp at h, ?_⟩⟩
      rintro (⟨e, rfl, -, he⟩ | ⟨e, rfl, -, -, pre, post, rfl, hunmatched, -⟩)
      · exact absurd hextend he.not_extendable
      · exact absurd hunmatched (Nested.not_unmatched hds ((nested_iff hds).2 hread))
    | cons d stack =>
      have hlast := lastUnmatched_of_openBehind hds hread
      refine ⟨by simp, fun f => ⟨?_, ?_⟩⟩
      · intro h
        obtain rfl := Except.error.inj h
        exact .inr ⟨d, rfl, rfl, fun p hp => hextend.of_prefix (hp.map _), hlast⟩
      · rintro (⟨e, rfl, -, he⟩ | ⟨e, rfl, -, -, he⟩)
        · exact absurd hextend he.not_extendable
        · rw [hlast.unique he]

theorem balance_iff_braces :
    (∀ d ∈ [⟨'\x7b', 1, 1⟩, ⟨'(', 2, 1⟩, ⟨'\x7d', 3, 1⟩], Delimiter.IsBracket d) ∧
      FirstBroken [⟨'\x7b', 1, 1⟩, ⟨'(', 2, 1⟩, ⟨'\x7d', 3, 1⟩] ⟨'\x7d', 3, 1⟩ ∧
      (∀ d ∈ [⟨'\x7b', 1, 1⟩, ⟨'(', 2, 1⟩, ⟨')', 3, 1⟩], Delimiter.IsBracket d) ∧
      LastUnmatched [⟨'\x7b', 1, 1⟩, ⟨'(', 2, 1⟩, ⟨')', 3, 1⟩] ⟨'\x7b', 1, 1⟩ := by
  have hcrossed : ∀ d ∈ [⟨'\x7b', 1, 1⟩, ⟨'(', 2, 1⟩, ⟨'\x7d', 3, 1⟩], Delimiter.IsBracket d := by
    decide
  have hopen : ∀ d ∈ [⟨'\x7b', 1, 1⟩, ⟨'(', 2, 1⟩, ⟨')', 3, 1⟩], Delimiter.IsBracket d := by
    decide
  refine ⟨hcrossed, ?_, hopen, ?_⟩
  · rcases ((balance_iff hcrossed).2 (.unexpected ⟨'\x7d', 3, 1⟩)).1 rfl with
      ⟨d, hfault, -, hbroken⟩ | ⟨d, hfault, -⟩
    · cases hfault
      exact hbroken
    · cases hfault
  · rcases ((balance_iff hopen).2 (.unclosed ⟨'\x7b', 1, 1⟩)).1 rfl with
      ⟨d, hfault, -⟩ | ⟨d, hfault, -, -, hlast⟩
    · cases hfault
    · cases hfault
      exact hlast

end RepairLoop.Rust
