import Mathlib.Data.List.Forall2
import RepairLoop.Proofs.Steps
import RepairLoop.Rust.Source
/-!
# Scanner — masking one stretch after the other

`Scanner.read` says what the scanner makes of a character. `Scanner.walk` is a row of such steps
over a stretch, with the rest of the text behind it: scanning is walking to the end of the text
(`scan_eq`), and a text may be walked stretch by stretch (`walk_append`). The scanner looks ahead
at two characters, but for a quote with a backslash behind it; so a stretch without these is
walked alike in front of texts that start with the same two characters (`walk_congr`).
-/

namespace RepairLoop.Rust

/-- A character that is shown as it is, or for which a space stands. -/
def Masked (c d : Char) : Prop := d = c ∨ d = ' '

instance (c d : Char) : Decidable (Masked c d) := inferInstanceAs (Decidable (_ ∨ _))

namespace Passage

/-- Two stretches in a row. -/
def append (p q : Passage) : Passage := ⟨p.shown ++ q.shown, p.found ++ q.found, q.scanner⟩

theorem append_assoc (p q r : Passage) : (p.append q).append r = p.append (q.append r) := by
  simp only [append, List.append_assoc]

end Passage

namespace Scanner

variable {s : Scanner} {c : Char} {cs rest behind behind' : List Char}

/-- In code, with nothing that is blanked whatever it is. -/
def InCode (s : Scanner) : Prop := s.region = .code ∧ s.skip = 0

instance (s : Scanner) : Decidable s.InCode := inferInstanceAs (Decidable (_ ∧ _))

/-- What the scanner makes of a stretch in front of some more characters. -/
def walk (s : Scanner) : List Char → List Char → Passage
  | [], _ => ⟨[], [], s⟩
  | c :: cs, behind =>
    let first := s.read c (cs ++ behind)
    first.append (first.scanner.walk cs behind)

theorem walk_cons (s : Scanner) (c : Char) (cs behind : List Char) :
    s.walk (c :: cs) behind = (s.read c (cs ++ behind)).append
      ((s.read c (cs ++ behind)).scanner.walk cs behind) := rfl

/-- **Two stretches in a row** are walked one after the other. -/
theorem walk_append (s : Scanner) (cs ds behind : List Char) :
    s.walk (cs ++ ds) behind =
      (s.walk cs (ds ++ behind)).append ((s.walk cs (ds ++ behind)).scanner.walk ds behind) := by
  induction cs generalizing s with
  | nil => rfl
  | cons c cs ih =>
    rw [List.cons_append, walk_cons, walk_cons, ih, List.append_assoc]
    exact (Passage.append_assoc ..).symm

/-- **Scanning is walking to the end**, where no comment in a block and no text may be open. -/
theorem scan_eq (s : Scanner) (cs : List Char) :
    s.scan cs = (s.walk cs []).scanner.finish.map
      fun _ => ((s.walk cs []).shown, (s.walk cs []).found) := by
  induction cs generalizing s with
  | nil =>
    show (s.finish >>= fun _ => .ok ([], [])) = s.finish.map fun _ => ([], [])
    cases s.finish <;> rfl
  | cons c cs ih =>
    rw [scan, walk_cons, List.append_nil, ih]
    simp only [Passage.append]
    cases ((s.read c cs).scanner.walk cs []).scanner.finish <;> rfl

theorem scan_eq_ok {shown : List Char} {found : List Delimiter} :
    s.scan cs = .ok (shown, found) ↔ (s.walk cs []).scanner.finish = .ok () ∧
      (s.walk cs []).shown = shown ∧ (s.walk cs []).found = found := by
  rw [scan_eq]
  cases (s.walk cs []).scanner.finish with
  | error e =>
    constructor
    · exact fun h => by cases h
    · exact fun h => by cases h.1
  | ok _ => simp [Except.map]

/-! ## What is shown -/

theorem readCode_shown (s : Scanner) (c : Char) (rest : List Char) :
    (s.readCode c rest).shown = [c] ∨ (s.readCode c rest).shown = [' '] := by
  unfold readCode
  repeat' split
  all_goals first | exact Or.inl rfl | exact Or.inr rfl

/-- **For each character that is read one is shown**: itself or a space. -/
theorem read_shown (s : Scanner) (c : Char) (rest : List Char) :
    (s.read c rest).shown = [c] ∨ (s.read c rest).shown = [' '] := by
  unfold read
  split
  · exact Or.inr rfl
  split
  · exact Or.inl rfl
  split
  · exact readCode_shown s c rest
  · exact Or.inr rfl
  · unfold readBlock
    repeat' split
    all_goals exact Or.inr rfl
  · unfold readText
    repeat' split
    all_goals first | exact Or.inl rfl | exact Or.inr rfl

/-- **A stretch is masked character by character.** -/
theorem walk_masked (s : Scanner) (cs behind : List Char) :
    List.Forall₂ Masked cs (s.walk cs behind).shown := by
  induction cs generalizing s with
  | nil => exact .nil
  | cons c cs ih =>
    rw [walk_cons, Passage.append]
    obtain hshown | hshown := s.read_shown c (cs ++ behind)
    · rw [hshown]
      exact .cons (Or.inl rfl) (ih _)
    · rw [hshown]
      exact .cons (Or.inr rfl) (ih _)

/-! ## What is blanked -/

/-- Some characters on a line that are blanked, in the region where they stand. -/
def blanks (s : Scanner) (n : Nat) : Passage :=
  ⟨List.replicate n ' ', [], ⟨s.region, 0, s.line, s.column + n⟩⟩

/-- A blanked character and some more. -/
theorem blank_append (s : Scanner) (skip n : Nat) :
    (s.blank s.region skip).append ((s.blank s.region skip).scanner.blanks n) =
      s.blanks (n + 1) := by
  simp only [blanks, blank, onward, Passage.append, List.nil_append, List.replicate_succ,
    List.singleton_append, Nat.add_assoc, Nat.add_comm 1]

/-- The characters that are blanked whatever they are. -/
theorem walk_skip (cs behind : List Char) (h : s.skip = cs.length) :
    s.walk cs behind = s.blanks cs.length := by
  induction cs generalizing s with
  | nil =>
    obtain ⟨region, skip, line, column⟩ := s
    obtain rfl : skip = 0 := h
    rfl
  | cons c cs ih =>
    have hread : s.read c (cs ++ behind) = s.blank s.region cs.length := by
      rw [read, h]
      rfl
    rw [walk_cons, hread, ih rfl]
    exact s.blank_append cs.length cs.length

/-- The rest of a comment on a line. -/
theorem walk_comment (hregion : s.region = .comment) (hskip : s.skip = 0) (cs behind : List Char)
    (hfeed : '\n' ∉ cs) : s.walk cs behind = s.blanks cs.length := by
  induction cs generalizing s with
  | nil =>
    obtain ⟨region, skip, line, column⟩ := s
    obtain rfl : skip = 0 := hskip
    rfl
  | cons c cs ih =>
    obtain ⟨hc, hfeed⟩ := not_or.1 (List.mem_cons.not.1 hfeed)
    have hread : s.read c (cs ++ behind) = s.blank s.region 0 := by
      simp only [read, hskip, hregion, beq_iff_eq, Ne.symm hc, if_false]
    rw [walk_cons, hread, ih (s := (s.blank s.region 0).scanner) hregion rfl hfeed]
    exact s.blank_append 0 cs.length

/-! ## What is seen ahead -/

theorem head?_congr (h : behind.take 2 = behind'.take 2) : behind.head? = behind'.head? := by
  cases behind <;> cases behind' <;> simp_all

/-- The width of a literal that is no escape is seen at two characters. -/
theorem literalWidth?_congr (hescape : behind.head? ≠ some '\\')
    (h : behind.take 2 = behind'.take 2) : literalWidth? behind = literalWidth? behind' := by
  match behind, behind' with
  | [], [] => rfl
  | [c], [d] =>
    obtain rfl : c = d := by simpa using h
    rfl
  | c :: d :: rest, c' :: d' :: rest' =>
    obtain ⟨rfl, rfl⟩ : c = c' ∧ d = d' := by simpa using h
    have hc : c ≠ '\\' := fun hc => hescape (congrArg some hc)
    rw [literalWidth?, literalWidth?]
    · exact fun hc' => absurd hc' hc
    · exact fun hc' => absurd hc' hc

/-- A character is read by the two characters behind it, unless it is a quote with a backslash
behind it. -/
theorem read_congr (hquote : c = '\'' → behind.head? ≠ some '\\')
    (h : behind.take 2 = behind'.take 2) : s.read c behind = s.read c behind' := by
  have hhead := head?_congr h
  have hwidth : c = '\'' → literalWidth? behind = literalWidth? behind' :=
    fun hc => literalWidth?_congr (hquote hc) h
  unfold read
  split
  · rfl
  split
  · rfl
  split
  · unfold readCode
    rw [hhead]
    by_cases hc : c = '\''
    · rw [hwidth hc]
    · simp only [beq_iff_eq, hc, if_false]
  · rfl
  · unfold readBlock
    rw [hhead]
  · unfold readText
    rw [hhead]

theorem take_two_append (cs : List Char) (h : behind.take 2 = behind'.take 2) :
    (cs ++ behind).take 2 = (cs ++ behind').take 2 := by
  have hfewer : behind.take (2 - cs.length) = behind'.take (2 - cs.length) := by
    have hmin : min (2 - cs.length) 2 = 2 - cs.length := Nat.min_eq_left (Nat.sub_le ..)
    rw [← hmin, ← List.take_take, h, List.take_take]
  rw [List.take_append, List.take_append, hfewer]

/-- **A stretch is walked alike in front of texts that start with the same two characters**, if
no quote has a backslash behind it. -/
theorem walk_congr (hescape : ¬['\'', '\\'] <:+: cs) (hnext : behind.head? ≠ some '\\')
    (h : behind.take 2 = behind'.take 2) : s.walk cs behind = s.walk cs behind' := by
  induction cs generalizing s with
  | nil => rfl
  | cons c cs ih =>
    have hquote : c = '\'' → (cs ++ behind).head? ≠ some '\\' := by
      rintro rfl hhead
      cases cs with
      | nil => exact hnext hhead
      | cons d cs =>
        obtain rfl : d = '\\' := by simpa using hhead
        exact hescape (List.prefix_append ['\'', '\\'] cs).isInfix
    rw [walk_cons, walk_cons, read_congr hquote (take_two_append cs h),
      ih fun hin => hescape (List.infix_cons hin)]

end Scanner

end RepairLoop.Rust
