import RepairLoop.Inspection.Pass
import RepairLoop.Proofs.Rust.Scanner
import RepairLoop.Proofs.Text.Lines
/-!
# Mirror — when masked lines stand beside the lines they mask

A finding in Rust is made in a masked line and told with the line of the same number. The masked
text is cut at line feeds alone, the text at every boundary; and a character literal that the
scanner enters is blanked with the line feeds in it. The masked lines are the lines of the text,
character by character, exactly where neither makes a difference (`mirrored_iff`), and there a
finding points at what a rule has matched.
-/

namespace RepairLoop.Rust

open Text (Plain isLineBoundary)

/-! ## Line feeds that are kept -/

/-- A line feed is shown as it is. -/
def KeepsFeed (c d : Char) : Prop := c = '\n' → d = '\n'

/-- The quote in front of a text opens a character literal that holds a line feed. -/
def HidesFeed (cs : List Char) : Prop :=
  ∃ n, literalWidth? cs = some n ∧ '\n' ∈ cs.take n

instance (cs : List Char) : Decidable (HidesFeed cs) :=
  decidable_of_iff (∃ n ∈ literalWidth? cs, '\n' ∈ cs.take n) Iff.rfl

namespace Scanner

/-- On its way through a text the scanner comes to a quote that opens a character literal with a
line feed in it. -/
def Swallows (s : Scanner) (cs : List Char) : Prop :=
  ∃ pre rest, cs = pre ++ '\'' :: rest ∧ (s.walk pre ('\'' :: rest)).scanner.InCode ∧
    HidesFeed rest

theorem not_swallows_nil (s : Scanner) : ¬s.Swallows [] := by
  rintro ⟨pre, rest, h, -⟩
  cases pre <;> cases h

theorem swallows_cons (s : Scanner) (c : Char) (cs : List Char) :
    s.Swallows (c :: cs) ↔
      (c = '\'' ∧ s.InCode ∧ HidesFeed cs) ∨ (s.read c cs).scanner.Swallows cs := by
  constructor
  · rintro ⟨pre, rest, hcs, hcode, hfeed⟩
    cases pre with
    | nil =>
      obtain ⟨rfl, rfl⟩ := List.cons.inj hcs
      exact Or.inl ⟨rfl, hcode, hfeed⟩
    | cons d pre =>
      obtain ⟨rfl, rfl⟩ := List.cons.inj hcs
      exact Or.inr ⟨pre, rest, rfl, hcode, hfeed⟩
  · rintro (⟨rfl, hcode, hfeed⟩ | ⟨pre, rest, rfl, hcode, hfeed⟩)
    · exact ⟨[], cs, rfl, hcode, hfeed⟩
    · exact ⟨c :: pre, rest, rfl, hcode, hfeed⟩

instance decidableSwallows (s : Scanner) : ∀ cs, Decidable (s.Swallows cs)
  | [] => isFalse s.not_swallows_nil
  | c :: cs =>
    have := decidableSwallows (s.read c cs).scanner cs
    decidable_of_iff _ (s.swallows_cons c cs).symm

theorem feed_notMem_take_one {cs : List Char} {c : Char} (h : cs.head? = some c) (hc : c ≠ '\n') :
    '\n' ∉ cs.take 1 := by
  cases cs with
  | nil => simp
  | cons d cs =>
    obtain rfl : d = c := by simpa using h
    simpa using hc.symm

/-- In code only a character literal may hide line feeds. -/
theorem readCode_hides_iff (s : Scanner) (c : Char) (rest : List Char) :
    '\n' ∈ rest.take (s.readCode c rest).scanner.skip ↔ c = '\'' ∧ HidesFeed rest := by
  unfold readCode
  split
  · rename_i h
    obtain ⟨rfl, -⟩ : c = '/' ∧ _ := by simpa using h
    simp [blank, onward]
  split
  · rename_i h
    obtain ⟨rfl, hstar⟩ : c = '/' ∧ rest.head? = some '*' := by simpa using h
    exact iff_of_false (feed_notMem_take_one hstar (by decide)) fun h => absurd h.1 (by decide)
  split
  · rename_i h
    obtain rfl : c = '"' := by simpa using h
    simp [keep, onward]
  split
  · rename_i h
    obtain rfl : c = '\'' := by simpa using h
    cases hwidth : literalWidth? rest with
    | none => simp [keep, onward, HidesFeed, hwidth]
    | some n => simp [blank, onward, HidesFeed, hwidth]
  · rename_i h
    have hc : c ≠ '\'' := by simpa using h
    simp [onward, hc]

theorem readBlock_hides (s : Scanner) (outer : Nat) (c : Char) (rest : List Char) :
    '\n' ∉ rest.take (s.readBlock outer c rest).scanner.skip := by
  unfold readBlock
  split
  · rename_i h
    have hstar : c = '/' ∧ rest.head? = some '*' := by simpa using h
    exact feed_notMem_take_one hstar.2 (by decide)
  split
  · rename_i h
    have hslash : c = '*' ∧ rest.head? = some '/' := by simpa using h
    cases outer <;> exact feed_notMem_take_one hslash.2 (by decide)
  · simp [blank, onward]

theorem readText_hides (s : Scanner) (line column : Nat) (c : Char) (rest : List Char) :
    '\n' ∉ rest.take (s.readText line column c rest).scanner.skip := by
  unfold readText
  split
  · rename_i h
    simp only [Bool.and_eq_true, Option.isSome_iff_exists, bne_iff_ne, ne_eq] at h
    obtain ⟨⟨-, d, hd⟩, hfeed⟩ := h
    exact feed_notMem_take_one hd fun h => hfeed (h ▸ hd)
  split
  · simp [keep, onward]
  · simp [blank, onward]

/-- **One character**: as far as it settles what becomes of the line feeds, they are kept where
none stands in what is blanked already or in the literal that it opens. -/
theorem read_feeds (s : Scanner) (c : Char) (rest : List Char) :
    ((c = '\n' → (s.read c rest).shown = ['\n']) ∧
        '\n' ∉ rest.take (s.read c rest).scanner.skip) ↔
      '\n' ∉ (c :: rest).take s.skip ∧ ¬(c = '\'' ∧ s.InCode ∧ HidesFeed rest) := by
  obtain ⟨region, skip, line, column⟩ := s
  cases skip with
  | succ skip =>
    have hout : ¬(Scanner.mk region (skip + 1) line column).InCode := fun h => absurd h.2 (by simp)
    simp only [read, blank, onward, hout, List.take_succ_cons, List.mem_cons]
    simp [eq_comm]
  | zero =>
    by_cases hc : c = '\n'
    · subst hc
      cases region <;> simp [read, fed]
    cases region with
    | code => simp [read, hc, readCode_hides_iff, InCode]
    | comment => simp [read, hc, blank, onward, InCode]
    | block outer => simp [read, hc, readBlock_hides, InCode]
    | text line column => simp [read, hc, readText_hides, InCode]

/-- **The line feeds of a text are kept** where none stands in what is blanked already or in a
character literal on the way. -/
theorem keepsFeed_iff (s : Scanner) (cs : List Char) :
    List.Forall₂ KeepsFeed cs (s.walk cs []).shown ↔ '\n' ∉ cs.take s.skip ∧ ¬s.Swallows cs := by
  induction cs generalizing s with
  | nil => simp [walk, not_swallows_nil]
  | cons c cs ih =>
    have hfirst : ((c = '\n' → (s.read c cs).shown = ['\n']) ∧
        List.Forall₂ KeepsFeed cs ((s.read c cs).scanner.walk cs []).shown) ↔
        List.Forall₂ KeepsFeed (c :: cs) (s.walk (c :: cs) []).shown := by
      obtain hshown | hshown := s.read_shown c cs <;>
        simp [walk_cons, Passage.append, hshown, KeepsFeed]
    rw [← hfirst, ih, ← and_assoc, read_feeds, swallows_cons, not_or, and_assoc]

end Scanner

/-! ## Two ways to cut -/

/-- The lines of a text, each beside the masked line of its number, which is as long and differs
from it in spaces alone. -/
def Beside (text shown : List Char) : Prop :=
  List.Forall₂ (List.Forall₂ Masked) (Text.lineBodies text)
    ((Text.pieces '\n' shown).take (Text.lines text).length)

theorem beside_feed {text shown : List Char} :
    Beside ('\n' :: text) ('\n' :: shown) ↔ Beside text shown := by
  simp [Beside, Text.lineBodies, Text.lines_feed, Text.pieces_sep]

theorem not_beside_boundary {c d : Char} {text shown : List Char} (hc : isLineBoundary c = true)
    (hd : d ≠ '\n') : ¬Beside (c :: text) (d :: shown) := by
  obtain ⟨l, ls, hlines, hbody⟩ := Text.lines_boundary hc text
  obtain ⟨p, ps, hpieces⟩ := List.exists_cons_of_ne_nil (Text.pieces_ne_nil '\n' shown)
  intro h
  simp [Beside, Text.lineBodies, hlines, hbody, Text.pieces_cons hd hpieces] at h

theorem beside_cons {c d : Char} {text shown : List Char} (hc : isLineBoundary c = false)
    (hd : d ≠ '\n') (hmasked : Masked c d) (h : text.length = shown.length) :
    Beside (c :: text) (d :: shown) ↔ Beside text shown := by
  obtain ⟨p, ps, hpieces⟩ := List.exists_cons_of_ne_nil (Text.pieces_ne_nil '\n' shown)
  rw [Beside, Beside, Text.lineBodies, Text.lineBodies, Text.lines_cons_of_not_boundary hc,
    Text.pieces_cons hd hpieces, hpieces]
  cases hlines : Text.lines text with
  | nil =>
    obtain rfl : text = [] := by_contra fun hne => Text.lines_ne_nil hne hlines
    obtain rfl : shown = [] := List.length_eq_zero_iff.1 h.symm
    obtain ⟨rfl, rfl⟩ := List.cons.inj hpieces
    simp [Text.consLine, hmasked]
  | cons l ls => simp [Text.consLine, hmasked]

/-- **The masked lines are the lines, character by character,** exactly where the line feed is the
only boundary and each is kept. -/
theorem beside_iff {text shown : List Char} (h : List.Forall₂ Masked text shown) :
    Beside text shown ↔ Plain text ∧ List.Forall₂ KeepsFeed text shown := by
  induction h with
  | nil => simp [Beside, Text.lineBodies, Text.lines, Text.Plain]
  | @cons c d text shown hmasked htext ih =>
    have hplain : Plain (c :: text) ↔ (isLineBoundary c = true → c = '\n') ∧ Plain text := by
      simp [Plain]
    rw [hplain, List.forall₂_cons]
    by_cases hd : d = '\n'
    · obtain rfl : c = '\n' := by
        obtain h | h := hmasked
        · rw [← h, hd]
        · rw [hd] at h
          exact absurd h (by decide)
      rw [hd, beside_feed, ih]
      simp [KeepsFeed]
    cases hc : isLineBoundary c with
    | true =>
      exact iff_of_false (not_beside_boundary hc hd) fun h => hd (h.2.1 (h.1.1 rfl))
    | false =>
      have hfeed : c ≠ '\n' := by
        rintro rfl
        cases hc
      rw [beside_cons hc hd hmasked htext.length_eq, ih]
      simp [KeepsFeed, hfeed]

end RepairLoop.Rust

namespace RepairLoop

open Rust

namespace Pattern

/-- A match starts where it is looked for. -/
theorem searchFrom?_start_lt {n : Node} {text : Array Char} {mustAdvance : Bool} {fuel i : Nat}
    {m : Match} (h : n.searchFrom? text mustAdvance fuel i = some m) : m.start < i + fuel := by
  induction fuel generalizing i mustAdvance with
  | zero => cases h
  | succ fuel ih =>
    rw [Node.searchFrom?] at h
    split at h
    · rename_i found hfound
      obtain rfl := Option.some.inj h
      rw [Node.matchFrom?] at hfound
      split at hfound
      · obtain rfl := Option.some.inj hfound
        exact Nat.lt_add_of_pos_right (Nat.succ_pos _)
      · cases hfound
    · have := ih h
      omega

/-- A match starts in the text, or at its end. -/
theorem search?_start_le {n : Node} {text : Array Char} {m : Match} (h : n.search? text = some m) :
    m.start ≤ text.size := by
  have := searchFrom?_start_lt h
  omega

end Pattern

namespace Source

variable {path text : String} {settings : AnalysisSettings} {s : Source}

/-- The source that is made of a text in Rust. -/
def ofRust (path text : String) (settings : AnalysisSettings) (code : List (List Char)) : Source :=
  ⟨path, .rust, Text.splitLines text, code.map String.ofList, none, settings⟩

theorem readCode_rust (text : String) : readCode .rust text =
    match Rust.mask text.toList with
    | .error f => .error (.rust f)
    | .ok (code, found) =>
      match balance [] found with
      | .error f => .error (.rust f)
      | .ok _ => .ok (code.map String.ofList, none) := rfl

/-- **A text in Rust is read** as it is masked, if its brackets are balanced. -/
theorem read_rust (hrust : Language.ofPath path = .rust) : read path text settings =
    (Rust.mask text.toList >>= fun masked => balance [] masked.2 >>= fun _ =>
      .ok (ofRust path text settings masked.1)).mapError SourceFault.rust := by
  unfold read
  simp only [hrust, readCode_rust]
  cases Rust.mask text.toList with
  | error e => rfl
  | ok masked =>
    show _ = (balance [] masked.2 >>= fun _ =>
      Except.ok (ofRust path text settings masked.1)).mapError SourceFault.rust
    simp only
    cases balance [] masked.2 <;> rfl

/-- What is read of a text in Rust is made of what its scan shows. -/
theorem shown_of_read (hrust : Language.ofPath path = .rust)
    (hread : read path text settings = .ok s) :
    s = ofRust path text settings
      ((Text.pieces '\n' (Scanner.start.walk text.toList []).shown).take
        (Text.lines text.toList).length) := by
  rw [read_rust hrust, mapError_eq_ok] at hread
  obtain ⟨masked, hmask, hread⟩ := ok_of_bind hread
  obtain ⟨_, -, hread⟩ := ok_of_bind hread
  obtain ⟨⟨shown, found⟩, hscan, hmask⟩ := ok_of_bind hmask
  obtain rfl := Except.ok.inj hmask
  obtain rfl := Except.ok.inj hread
  rw [(Scanner.scan_eq_ok.1 hscan).2.1]

/-- The masked lines stand beside the lines: there are as many, and each is as long as the line of
its number and differs from it in spaces alone. -/
def Mirrored (s : Source) : Prop :=
  List.Forall₂ (fun line code => List.Forall₂ Masked line.toList code.toList) s.lines s.codeLines

/-- What a rule finds points at what it has matched: the masked line of its number has a match that
starts at its column, the line of that number is the masked line but for what is blanked, and
this is the line that is quoted. -/
def Points (s : Source) (r : Inspection.LineRule) (f : Finding) : Prop :=
  ∃ (i : Nat) (line code : String) (m : Pattern.Match),
    s.lines[i]? = some line ∧ s.codeLines[i]? = some code ∧
    List.Forall₂ Masked line.toList code.toList ∧
    r.pattern.search? code.toList.toArray = some m ∧ m.start ≤ line.length ∧
    f.rule = r.code ∧ f.line = i + 1 ∧ f.column = m.start + 1 ∧
    f.context.lookup "line" = some line

theorem mirrored_ofRust {shown : List Char} :
    (ofRust path text settings
        ((Text.pieces '\n' shown).take (Text.lines text.toList).length)).Mirrored ↔
      Beside text.toList shown := by
  simp only [Mirrored, ofRust, Text.splitLines, List.forall₂_map_left_iff,
    List.forall₂_map_right_iff, String.toList_ofList, Beside]

theorem lookup_context {lines : List String} {span : Int} {i : Nat} {line : String}
    (h : lines[i]? = some line) : (context lines span (i + 1)).lookup "line" = some line := by
  simp [context, List.lookup_cons, h]

/-- **In a mirrored source every finding of a rule points at what is matched.** -/
theorem Mirrored.points (h : s.Mirrored) {rules : List Inspection.LineRule} {f : Finding}
    (hf : f ∈ Inspection.scanLines s rules) : ∃ r ∈ rules, s.Points r f := by
  rw [Inspection.scanLines, List.mem_flatMap] at hf
  obtain ⟨⟨code, i⟩, hcode, hf⟩ := hf
  replace hcode : s.codeLines[i]? = some code := List.mem_zipIdx_iff_getElem?.1 hcode
  obtain ⟨r, hr, hf⟩ := List.mem_filterMap.1 hf
  obtain ⟨m, hm, rfl⟩ := Option.map_eq_some_iff.1 hf
  obtain ⟨hi', rfl⟩ := List.getElem?_eq_some_iff.1 hcode
  have hi : i < s.lines.length := h.length_eq ▸ hi'
  have hbeside : List.Forall₂ Masked s.lines[i].toList s.codeLines[i].toList := h.get hi hi'
  refine ⟨r, hr, i, s.lines[i], s.codeLines[i], m, List.getElem?_eq_getElem hi, hcode, hbeside, hm,
    ?_, rfl, rfl, rfl, lookup_context (List.getElem?_eq_getElem hi)⟩
  have hstart := Pattern.search?_start_le hm
  rwa [List.size_toArray, ← hbeside.length_eq, String.length_toList] at hstart

/-- **Main result.** The masked lines of a text in Rust stand beside its lines exactly where the
line feed is its only boundary and no character literal that the scanner enters holds one; and
there every finding of a rule points at what is matched. -/
theorem mirrored_iff (hrust : Language.ofPath path = .rust)
    (hread : read path text settings = .ok s) :
    (s.Mirrored ↔ Text.Plain text.toList ∧ ¬Scanner.start.Swallows text.toList) ∧
      (s.Mirrored → ∀ rules, ∀ f ∈ Inspection.scanLines s rules, ∃ r ∈ rules, s.Points r f) := by
  refine ⟨?_, fun h rules f hf => h.points hf⟩
  rw [shown_of_read hrust hread, mirrored_ofRust, beside_iff (Scanner.walk_masked ..),
    Scanner.keepsFeed_iff]
  simp [Scanner.start]

theorem mirrored_iff_unsafe : ∃ s, Language.ofPath "a.rs" = .rust ∧
    read "a.rs" "f('\\n'); // g\nunsafe \x7b g() \x7d\n" .usual = .ok s ∧ s.Mirrored ∧
    (∀ f ∈ Inspection.scanLines s Inspection.rustUnsafe,
      ∃ r ∈ Inspection.rustUnsafe, s.Points r f) ∧
    (Inspection.scanLines s Inspection.rustUnsafe).map (fun f => (f.line, f.column)) =
      [(2, 1)] := by
  have hrust : Language.ofPath "a.rs" = .rust := by decide
  have hread : read "a.rs" "f('\\n'); // g\nunsafe \x7b g() \x7d\n" .usual =
      .ok (ofRust "a.rs" "f('\\n'); // g\nunsafe \x7b g() \x7d\n" .usual
        ["f(    );     ".toList, "unsafe \x7b g() \x7d".toList]) := by
    rw [read_rust hrust]
    rfl
  have hmirrored := (mirrored_iff hrust hread).1.2 ⟨by decide +kernel, by decide +kernel⟩
  exact ⟨_, hrust, hread, hmirrored, (mirrored_iff hrust hread).2 hmirrored _, by decide +kernel⟩

/-- A form feed ends a line of the text, but none of the masked text: what is found behind it is
told with the line before, which is empty. -/
theorem not_mirrored_of_form_feed : ∃ s, Language.ofPath "a.rs" = .rust ∧
    read "a.rs" "a\x0c\nunsafe \x7b b \x7d\n" .usual = .ok s ∧
    s.lines = ["a", "", "unsafe \x7b b \x7d"] ∧ s.codeLines = ["a\x0c", "unsafe \x7b b \x7d", ""] ∧
    (Inspection.scanLines s Inspection.rustUnsafe).map
      (fun f => (f.line, f.column, f.context.lookup "line")) = [(2, 1, some "")] ∧
    ¬s.Mirrored := by
  have hrust : Language.ofPath "a.rs" = .rust := by decide
  have hread : read "a.rs" "a\x0c\nunsafe \x7b b \x7d\n" .usual =
      .ok (ofRust "a.rs" "a\x0c\nunsafe \x7b b \x7d\n" .usual
        ["a\x0c".toList, "unsafe \x7b b \x7d".toList, []]) := by
    rw [read_rust hrust]
    rfl
  refine ⟨_, hrust, hread, by decide +kernel, by decide +kernel, by decide +kernel, fun h => ?_⟩
  cases h with
  | cons hfirst _ => exact absurd hfirst.length_eq (by decide +kernel)

end Source

end RepairLoop

/-!
## Comments — what a comment says is not seen

Two texts that differ in what a comment on a line says, and not in how long it is, are scanned
alike: in front of the comment the scanner sees no further than its two slashes (`walk_congr`),
and behind it the scanner stands at the same place. So nothing that is made of the masked text
depends on the comment: the text is read or refused alike, and what is found in it is the same
but for the lines that are quoted (`comment_unseen`).
-/

namespace RepairLoop

namespace Text

/-- The same character, or two of which neither ends a line. -/
def SameBreak (c d : Char) : Prop :=
  c = d ∨ isLineBoundary c = false ∧ isLineBoundary d = false

theorem SameBreak.refl (c : Char) : SameBreak c c := Or.inl rfl

theorem SameBreak.symm {c d : Char} (h : SameBreak c d) : SameBreak d c :=
  h.imp Eq.symm And.symm

/-- A boundary is the same character in both texts. -/
theorem SameBreak.eq {c d : Char} (h : SameBreak c d) (hc : isLineBoundary c = true) : d = c := by
  obtain rfl | ⟨hc', -⟩ := h
  · rfl
  · rw [hc'] at hc
    cases hc

theorem head?_feed_iff {cs ds : List Char} (h : List.Forall₂ SameBreak cs ds) :
    cs.head? = some '\n' ↔ ds.head? = some '\n' := by
  cases h with
  | nil => rfl
  | cons hcd _ =>
    simp only [List.head?_cons, Option.some.injEq]
    constructor
    · rintro rfl
      exact hcd.eq (by decide)
    · rintro rfl
      exact hcd.symm.eq (by decide)

/-- **Texts that break alike have as many lines.** -/
theorem length_lines_congr {cs ds : List Char} (h : List.Forall₂ SameBreak cs ds) :
    (lines cs).length = (lines ds).length := by
  induction cs using lines.induct generalizing ds with
  | case1 =>
    cases h
    rfl
  | case2 rest ih =>
    obtain _ | ⟨hreturn, _ | ⟨hfeed, hrest⟩⟩ := h
    rw [hreturn.eq (by decide), hfeed.eq (by decide), lines, lines, List.length_cons,
      List.length_cons, ih hrest]
  | case3 c rest hnot hc ih =>
    obtain _ | ⟨hcd, hrest⟩ := h
    rename_i d rest'
    obtain rfl := hcd.eq hc
    have hr : d = '\r' → rest.head? ≠ some '\n' := head?_ne_feed hnot
    rw [lines_cons_of_boundary hc hr,
      lines_cons_of_boundary hc fun hd => (head?_feed_iff hrest).not.1 (hr hd), List.length_cons,
      List.length_cons, ih hrest]
  | case4 c rest hnot hc ih =>
    obtain _ | ⟨hcd, hrest⟩ := h
    rename_i d rest'
    have hc : isLineBoundary c = false := by simpa using hc
    have hd : isLineBoundary d = false := hcd.elim (fun h => h ▸ hc) And.right
    rw [lines_cons_of_not_boundary hc, lines_cons_of_not_boundary hd, length_consLine,
      length_consLine, ih hrest]

end Text

namespace Rust

open Text (Unbroken)

/-- A comment on a line that the scanner enters in a text: what stands in front of it, what it
says, and what stands behind it. -/
structure LineComment where
  before : List Char
  said : List Char
  behind : List Char
  entered : (Scanner.start.walk before ('/' :: '/' :: (said ++ behind))).scanner.InCode
  unbroken : Unbroken said
  ended : behind = [] ∨ behind.head? = some '\n'

namespace LineComment

variable (k : LineComment)

/-- The text, with the comment saying what it does or something else. -/
def saying (said : List Char) : List Char :=
  k.before ++ '/' :: '/' :: (said ++ k.behind)

/-- The text as it is. -/
def text : List Char := k.saying k.said

/-- What the scanner makes of a comment on a line with some characters behind its slashes. -/
def blanked (s : Scanner) (n : Nat) : Passage :=
  (s.blank .comment 0).append ((s.blank .comment 0).scanner.blanks (n + 1))

/-- **A comment is blanked**, and where the scanner stands behind it depends on its length alone. -/
theorem walk_said {s : Scanner} (hs : s.InCode) {said : List Char} (hsaid : Unbroken said)
    (behind : List Char) : s.walk ('/' :: '/' :: said) behind = blanked s said.length := by
  have hfeed : '\n' ∉ '/' :: said := by
    intro h
    obtain h | h := List.mem_cons.1 h
    · exact absurd h (by decide)
    · exact absurd (hsaid _ h) (by decide)
  have hread : s.read '/' ('/' :: said ++ behind) = s.blank .comment 0 := by
    simp [Scanner.read, Scanner.readCode, hs.1, hs.2]
  rw [Scanner.walk_cons, hread, Scanner.walk_comment rfl rfl _ _ hfeed]
  rfl

/-- What the scanner makes of the text in front of the comment, of which it sees the slashes. -/
def front : Passage := Scanner.start.walk k.before ['/', '/']

variable {k}

theorem walk_before (hescape : ¬['\'', '\\'] <:+: k.before) (rest : List Char) :
    Scanner.start.walk k.before ('/' :: '/' :: rest) = k.front :=
  Scanner.walk_congr hescape (by simp) rfl

/-- **The walk through the text**, of which the comment gives its length alone. -/
theorem walk_saying (hescape : ¬['\'', '\\'] <:+: k.before) {said : List Char}
    (hsaid : Unbroken said) :
    Scanner.start.walk (k.saying said) [] =
      k.front.append ((blanked k.front.scanner said.length).append
        ((blanked k.front.scanner said.length).scanner.walk k.behind [])) := by
  have hentered : k.front.scanner.InCode := walk_before hescape _ ▸ k.entered
  have hsplit : k.saying said = k.before ++ (('/' :: '/' :: said) ++ k.behind) := rfl
  rw [hsplit, Scanner.walk_append, List.append_nil, List.cons_append, List.cons_append,
    walk_before hescape, ← List.cons_append, ← List.cons_append, Scanner.walk_append,
    walk_said hentered hsaid]

/-- The texts with one comment and the other break alike. -/
theorem sameBreak_saying {said : List Char} (hsaid : Unbroken said)
    (hlength : said.length = k.said.length) :
    List.Forall₂ Text.SameBreak (k.saying said) k.text := by
  have hsame (cs : List Char) : List.Forall₂ Text.SameBreak cs cs :=
    List.forall₂_same.2 fun c _ => .refl c
  have hcomment : List.Forall₂ Text.SameBreak said k.said :=
    List.forall₂_iff_zip.2 ⟨hlength, fun {c d} h =>
      have h := List.of_mem_zip h
      Or.inr ⟨hsaid c h.1, k.unbroken d h.2⟩⟩
  have hslash := Text.SameBreak.refl '/'
  exact List.rel_append (hsame _)
    (.cons hslash (.cons hslash (List.rel_append hcomment (hsame _))))

/-- **The masked lines and the brackets do not depend on what a comment says**, nor does whether
there are any. -/
theorem mask_saying (hescape : ¬['\'', '\\'] <:+: k.before) {said : List Char}
    (hsaid : Unbroken said) (hlength : said.length = k.said.length) :
    mask (k.saying said) = mask k.text := by
  have hwalk : Scanner.start.walk (k.saying said) [] = Scanner.start.walk k.text [] := by
    rw [text, walk_saying hescape hsaid, walk_saying hescape k.unbroken, hlength]
  have hlines := Text.length_lines_congr (sameBreak_saying hsaid hlength)
  rw [mask, mask, Scanner.scan_eq, Scanner.scan_eq, hwalk, hlines]

end LineComment

end Rust

/-- A finding in a source, told with the lines of another. -/
def Finding.quoting (f : Finding) (s : Source) : Finding :=
  { f with context := Source.context s.lines s.settings.contextLines f.line }

namespace Source

open Rust

/-- The lines are only quoted: what the rules find is in the masked lines. -/
theorem scanLines_quoting (s : Source) (lines : List String)
    (rules : List Inspection.LineRule) :
    Inspection.scanLines { s with lines := lines } rules =
      (Inspection.scanLines s rules).map (·.quoting { s with lines := lines }) := by
  simp only [Inspection.scanLines, List.map_flatMap, List.map_filterMap, Option.map_map]
  rfl

variable {path : String} {settings : AnalysisSettings}

/-- A text in Rust is read, but for its lines, as another that is masked alike. -/
theorem read_of_mask_eq (hrust : Language.ofPath path = .rust) (settings : AnalysisSettings)
    {text text' : String} (h : Rust.mask text'.toList = Rust.mask text.toList) :
    read path text' settings =
      (read path text settings).map fun s => { s with lines := Text.splitLines text' } := by
  rw [read_rust hrust, read_rust hrust, h]
  cases Rust.mask text.toList with
  | error e => rfl
  | ok masked =>
    show (balance [] masked.2 >>= fun _ => Except.ok _).mapError _ =
      ((balance [] masked.2 >>= fun _ => Except.ok _).mapError _).map _
    cases balance [] masked.2 <;> rfl

/-- **Main result.** Where no quote with a backslash behind it stands in front of a comment on a
line, what the comment says changes neither the masked lines nor the brackets: the text is read or
refused alike, the rules find the same in it but for the lines that are quoted, and its functions
have the same branches. -/
theorem comment_unseen (hrust : Language.ofPath path = .rust) (k : LineComment)
    (hescape : ¬['\'', '\\'] <:+: k.before) {said : List Char} (hsaid : Text.Unbroken said)
    (hlength : said.length = k.said.length) :
    Rust.mask (k.saying said) = Rust.mask k.text ∧
    (∀ e, read path (String.ofList k.text) settings = .error e →
      read path (String.ofList (k.saying said)) settings = .error e) ∧
    ∀ s, read path (String.ofList k.text) settings = .ok s →
      ∃ s', read path (String.ofList (k.saying said)) settings = .ok s' ∧
        s'.codeLines = s.codeLines ∧
        (∀ rules, Inspection.scanLines s' rules =
          (Inspection.scanLines s rules).map (·.quoting s')) ∧
        Inspection.branchesOf s' = Inspection.branchesOf s := by
  have hmask := LineComment.mask_saying hescape hsaid hlength
  have hstrings : Rust.mask (String.ofList (k.saying said)).toList =
      Rust.mask (String.ofList k.text).toList := by
    rw [String.toList_ofList, String.toList_ofList, hmask]
  have hread := read_of_mask_eq hrust settings hstrings
  refine ⟨hmask, fun e h => ?_, fun s h => ?_⟩
  · rw [hread, h]
    rfl
  · rw [hread, h]
    exact ⟨_, rfl, rfl, scanLines_quoting s _, rfl⟩

/-- A remark behind a call, in front of a block. -/
def remark : LineComment :=
  ⟨"f('a'); ".toList, " all well".toList, "\nunsafe \x7b g() \x7d\n".toList, by decide +kernel,
    by decide +kernel, by decide +kernel⟩

theorem comment_unseen_remark : ∃ s s', Language.ofPath "a.rs" = .rust ∧
    read "a.rs" "f('a'); // all well\nunsafe \x7b g() \x7d\n" .usual = .ok s ∧
    read "a.rs" "f('a'); // unsafe \x7b\nunsafe \x7b g() \x7d\n" .usual = .ok s' ∧
    s'.codeLines = s.codeLines ∧
    ∀ rules, Inspection.scanLines s' rules =
      (Inspection.scanLines s rules).map (·.quoting s') := by
  have hrust : Language.ofPath "a.rs" = .rust := by decide
  have hread : read "a.rs" (String.ofList remark.text) .usual =
      .ok (ofRust "a.rs" "f('a'); // all well\nunsafe \x7b g() \x7d\n" .usual
        ["f(   );            ".toList, "unsafe \x7b g() \x7d".toList]) := by
    rw [read_rust hrust]
    rfl
  have hsaid : Text.Unbroken " unsafe \x7b".toList := by decide +kernel
  obtain ⟨s', hread', hcode, hfound, -⟩ :=
    (comment_unseen hrust remark (by decide +kernel) hsaid (by decide +kernel)).2.2 _ hread
  exact ⟨_, s', hrust, hread, hread', hcode, hfound⟩

end Source

end RepairLoop
