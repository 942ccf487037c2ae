import RepairLoop.Json.Parser
import RepairLoop.Proofs.Rust.Scanner
import RepairLoop.Proofs.Text.Lines
/-!
# Literals — texts of words, brackets, texts and character literals

A text that is put together of tokens is masked token by token: a word and a bracket are shown,
of a text its quotes, of a character literal nothing; and the brackets found are the tokens that
are brackets, where they stand (`mask_written_iff`). The one token that is not masked whole is
the escaped quote: the closing quote is looked for from the second character on, which is that
quote itself. What is left of the token then is a quote, and it shows, or hides what is behind it
(`stray_quote`).
-/

namespace RepairLoop.Rust

open Text (EndsInLine Plain isLineBoundary)

/-! ## Tokens -/

/-- A bracket of any kind. -/
def isBracket (c : Char) : Bool := isOpening c || isClosing c

/-- A character that means nothing to the scanner in code. -/
def isSilent (c : Char) : Bool :=
  c != '\n' && c != '/' && c != '"' && c != '\'' && !isBracket c

/-- A character of a word: of a name, a number or a mark. -/
def isWordPart (c : Char) : Bool :=
  isSilent c && c != ' ' && c != '\\' && !isLineBoundary c

/-- A hexadecimal digit. -/
abbrev HexDigit := { c : Char // (Json.hexValue? c).isSome = true }

/-- An escape in a character literal: a character by itself, a byte in two digits, or a scalar
value in at most six. -/
inductive Escape where
  | simple (c : Char) (known : c ∈ ['\'', '"', '\\', 'n', 'r', 't', '0'])
  | byte (high low : HexDigit)
  | scalar (digits : List HexDigit) (short : 1 ≤ digits.length ∧ digits.length ≤ 6)

/-- What stands behind the backslash. -/
def Escape.body : Escape → List Char
  | simple c _ => [c]
  | byte high low => ['x', high, low]
  | scalar digits _ => 'u' :: '\x7b' :: (digits.map (·.1) ++ ['\x7d'])

/-- A character literal. -/
inductive CharLiteral where
  | plain (c : Char) (bare : c ≠ '\'' ∧ c ≠ '\\' ∧ c ≠ '\n')
  | escape (e : Escape)

/-- What stands between the quotes. -/
def CharLiteral.inside : CharLiteral → List Char
  | plain c _ => [c]
  | escape e => '\\' :: e.body

/-- A part of a text: a character by itself, or one with a backslash in front. -/
inductive TextPart where
  | plain (c : Char) (bare : c ≠ '"' ∧ c ≠ '\\')
  | escaped (c : Char)

def TextPart.written : TextPart → List Char
  | plain c _ => [c]
  | escaped c => ['\\', c]

/-- A word, a bracket, a text or a character literal, or a space between them. -/
inductive Token where
  | space
  | word (cs : List Char) (nonempty : cs ≠ []) (parts : ∀ c ∈ cs, isWordPart c = true)
  | bracket (c : Char) (h : isBracket c = true)
  | text (parts : List TextPart)
  | literal (l : CharLiteral)

namespace Token

/-- The literal of the quote. -/
def escapedQuote : Token := literal (.escape (.simple '\'' (by decide)))

/-- A token as it stands in a text. -/
def written : Token → List Char
  | space => [' ']
  | word cs _ _ => cs
  | bracket c _ => [c]
  | text parts => '"' :: (parts.flatMap TextPart.written ++ ['"'])
  | literal l => '\'' :: (l.inside ++ ['\''])

/-- A character that is blanked where line feeds are kept. -/
def faded (c : Char) : Char := if c = '\n' then '\n' else ' '

/-- A token as it is to be masked: blank if it is a character literal, and blank between its
quotes, but for the line feeds, if it is a text. -/
def masked : Token → List Char
  | space => [' ']
  | word cs _ _ => cs
  | bracket c _ => [c]
  | text parts => '"' :: ((parts.flatMap TextPart.written).map faded ++ ['"'])
  | literal l => List.replicate (l.inside.length + 2) ' '

end Token

/-- The line and column behind a stretch, from those in front of it. -/
def passed : Nat × Nat → List Char → Nat × Nat
  | p, [] => p
  | p, c :: cs => passed (if c = '\n' then (p.1 + 1, 1) else (p.1, p.2 + 1)) cs

/-- A bracket, where it stands. -/
def Token.found (p : Nat × Nat) : Token → List Delimiter
  | bracket c _ => [⟨c, p.1, p.2⟩]
  | _ => []

/-- The tokens that are brackets, where they stand. -/
def bracketsAt : Nat × Nat → List Token → List Delimiter
  | _, [] => []
  | p, t :: ts => t.found p ++ bracketsAt (passed p t.written) ts

/-! ## One token -/

theorem ne_of_holds {p : Char → Bool} {c d : Char} (hc : p c = true) (hd : p d = false) : c ≠ d := by
  rintro rfl
  rw [hc] at hd
  cases hd

theorem passed_append (p : Nat × Nat) (cs ds : List Char) :
    passed p (cs ++ ds) = passed (passed p cs) ds := by
  induction cs generalizing p with
  | nil => rfl
  | cons c cs ih => exact ih _

theorem passed_of_no_feed (p : Nat × Nat) {cs : List Char} (h : '\n' ∉ cs) :
    passed p cs = (p.1, p.2 + cs.length) := by
  induction cs generalizing p with
  | nil => rfl
  | cons c cs ih =>
    obtain ⟨hc, hcs⟩ := not_or.1 (List.mem_cons.not.1 h)
    rw [passed, if_neg (Ne.symm hc), ih _ hcs, List.length_cons, Nat.add_assoc, Nat.add_comm 1]

namespace Scanner

/-- The scanner at a line and column, with nothing that is blanked whatever it is. -/
def standing (region : Region) (p : Nat × Nat) : Scanner := ⟨region, 0, p.1, p.2⟩

theorem standing_start : start = standing .code (1, 1) := rfl

/-- A character that means nothing is shown. -/
theorem read_silent {c : Char} (hc : isSilent c = true) (p : Nat × Nat) (rest : List Char) :
    (standing .code p).read c rest = ⟨[c], [], standing .code (passed p [c])⟩ := by
  have hne (d : Char) (hd : isSilent d = false) : c ≠ d := ne_of_holds hc hd
  have hbracket : (isOpening c || isClosing c) = false := by
    rw [isSilent, Bool.and_eq_true, Bool.not_eq_true'] at hc
    exact hc.2
  simp [read, readCode, standing, onward, passed, hbracket, hne '\n' rfl, hne '/' rfl, hne '"' rfl,
    hne '\'' rfl]

theorem walk_silent {cs : List Char} (hcs : ∀ c ∈ cs, isSilent c = true) (p : Nat × Nat)
    (behind : List Char) :
    (standing .code p).walk cs behind = ⟨cs, [], standing .code (passed p cs)⟩ := by
  induction cs generalizing p with
  | nil => rfl
  | cons c cs ih =>
    obtain ⟨hc, hcs⟩ := List.forall_mem_cons.1 hcs
    rw [walk_cons, read_silent hc, ih hcs]
    rfl

theorem read_bracket {c : Char} (hc : isBracket c = true) (p : Nat × Nat) (rest : List Char) :
    (standing .code p).read c rest = ⟨[c], [⟨c, p.1, p.2⟩], standing .code (passed p [c])⟩ := by
  have hne (d : Char) (hd : isBracket d = false) : c ≠ d := ne_of_holds hc hd
  have hbracket : (isOpening c || isClosing c) = true := hc
  simp [read, readCode, standing, onward, passed, hbracket, hne '\n' rfl, hne '/' rfl, hne '"' rfl,
    hne '\'' rfl]

/-- A part of a text is blanked, but for its line feeds. -/
theorem walk_part (l k : Nat) (p : Nat × Nat) (part : TextPart) (behind : List Char) :
    (standing (.text l k) p).walk part.written behind =
      ⟨part.written.map Token.faded, [], standing (.text l k) (passed p part.written)⟩ := by
  cases part with
  | plain c bare =>
    by_cases hc : c = '\n'
    · subst hc
      rfl
    · simp [TextPart.written, walk, read, readText, standing, blank, onward, passed, Token.faded,
        Passage.append, hc, bare]
  | escaped c =>
    by_cases hc : c = '\n'
    · subst hc
      rfl
    · simp [TextPart.written, walk, read, readText, standing, blank, onward, passed, Token.faded,
        Passage.append, hc]

theorem walk_parts (l k : Nat) (p : Nat × Nat) (parts : List TextPart) (behind : List Char) :
    (standing (.text l k) p).walk (parts.flatMap TextPart.written) behind =
      ⟨(parts.flatMap TextPart.written).map Token.faded, [],
        standing (.text l k) (passed p (parts.flatMap TextPart.written))⟩ := by
  induction parts generalizing p with
  | nil => rfl
  | cons part parts ih =>
    rw [List.flatMap_cons, walk_append, walk_part, ih, List.map_append, passed_append]
    rfl

theorem hexDigit_ne (d : HexDigit) {c : Char} (hc : Json.hexValue? c = none) : c ≠ d.1 :=
  fun h => absurd d.2 (by rw [← h, hc]; exact Bool.false_ne_true)

/-- A character of an escape that is neither a digit nor a mark of the escape is that escape. -/
theorem eq_simple_of_mem {e : Escape} {c : Char} (h : c ∈ e.body) (hc : Json.hexValue? c = none)
    (hmark : c ∉ ['x', 'u', '\x7b', '\x7d']) : ∃ known, e = .simple c known := by
  simp only [List.mem_cons, List.not_mem_nil, or_false, not_or] at hmark
  obtain ⟨hx, hu, hopen, hclose⟩ := hmark
  cases e with
  | simple d known =>
    obtain rfl := List.mem_singleton.1 h
    exact ⟨known, rfl⟩
  | byte high low =>
    simp only [Escape.body, List.mem_cons, List.not_mem_nil, or_false] at h
    obtain h | h | h := h
    · exact absurd h hx
    · exact absurd h (hexDigit_ne high hc)
    · exact absurd h (hexDigit_ne low hc)
  | scalar digits short =>
    simp only [Escape.body, List.mem_cons, List.mem_append, List.mem_map, List.not_mem_nil,
      or_false] at h
    obtain h | h | ⟨d, -, h⟩ | h := h
    · exact absurd h hu
    · exact absurd h hopen
    · exact absurd h.symm (hexDigit_ne d hc)
    · exact absurd h hclose

/-- No escape but that of the quote holds a quote. -/
theorem quote_notMem_body {e : Escape}
    (he : Token.literal (.escape e) ≠ Token.escapedQuote) : '\'' ∉ e.body := by
  intro h
  obtain ⟨known, rfl⟩ := eq_simple_of_mem h (by decide) (by decide)
  exact he rfl

/-- No literal holds a line feed. -/
theorem feed_notMem_inside (l : CharLiteral) : '\n' ∉ l.inside := by
  intro h
  cases l with
  | plain c bare => exact bare.2.2 (List.mem_singleton.1 h).symm
  | escape e =>
    obtain h | h := List.mem_cons.1 h
    · exact absurd h (by decide)
    · obtain ⟨known, -⟩ := eq_simple_of_mem h (by decide) (by decide)
      revert known
      decide

/-- An escape fits in the window in which the closing quote is looked for. -/
theorem length_body_lt (e : Escape) : e.body.length < escapeWidth := by
  cases e with
  | simple c known => exact Nat.lt_of_sub_eq_succ rfl
  | byte high low => exact Nat.lt_of_sub_eq_succ rfl
  | scalar digits short =>
    have hlength : (Escape.scalar digits short).body.length = digits.length + 3 := by
      simp [Escape.body]
    rw [hlength, escapeWidth]
    omega

/-- The first quote behind a backslash is found if it is near. -/
theorem literalWidth?_escape {body : List Char} (hquote : '\'' ∉ body)
    (hnear : body.length < escapeWidth) (rest : List Char) :
    literalWidth? ('\\' :: (body ++ '\'' :: rest)) = some (body.length + 2) := by
  obtain ⟨n, hn⟩ : ∃ n, escapeWidth - body.length = n + 1 :=
    Nat.exists_eq_succ_of_ne_zero (Nat.sub_ne_zero_of_lt hnear)
  have hbody : body.findIdx? (· == '\'') = none := by
    rw [List.findIdx?_eq_none_iff]
    intro c hc
    simp only [beq_eq_false_iff_ne]
    rintro rfl
    exact hquote hc
  rw [literalWidth?, List.take_append, List.take_of_length_le (Nat.le_of_lt hnear), hn,
    List.take_succ_cons, List.findIdx?_append, hbody]
  simp [List.findIdx?_cons]

/-- **The width of a character literal** is that of what stands between its quotes and of the
closing one, unless it is the escaped quote. -/
theorem literalWidth?_inside {l : CharLiteral} (hl : Token.literal l ≠ Token.escapedQuote)
    (rest : List Char) :
    literalWidth? (l.inside ++ '\'' :: rest) = some (l.inside.length + 1) := by
  cases l with
  | plain c bare =>
    show literalWidth? (c :: '\'' :: rest) = some 2
    rw [literalWidth?]
    · simp [bare.2.2]
    · exact bare.2.1
  | escape e => exact literalWidth?_escape (quote_notMem_body hl) (length_body_lt e) rest

/-- **A token is masked as it is to be**, unless it is the escaped quote. -/
theorem walk_token {t : Token} (ht : t ≠ Token.escapedQuote) (p : Nat × Nat)
    (behind : List Char) :
    (standing .code p).walk t.written behind =
      ⟨t.masked, t.found p, standing .code (passed p t.written)⟩ := by
  cases t with
  | space => exact walk_silent (List.forall_mem_singleton.2 (by decide)) p behind
  | word cs nonempty parts =>
    refine walk_silent (fun c hc => ?_) p behind
    have hpart := parts c hc
    simp only [isWordPart, Bool.and_eq_true] at hpart
    exact hpart.1.1.1
  | bracket c h =>
    show (standing .code p).walk [c] behind = _
    rw [walk_cons, read_bracket h]
    rfl
  | text parts =>
    have hopen (rest : List Char) : (standing .code p).read '"' rest =
        ⟨['"'], [], standing (.text p.1 p.2) (passed p ['"'])⟩ := by
      simp [read, readCode, standing, keep, onward, passed]
    have hclose (l k : Nat) (q : Nat × Nat) : (standing (.text l k) q).walk ['"'] behind =
        ⟨['"'], [], standing .code (passed q ['"'])⟩ := by
      simp [walk, read, readText, standing, keep, onward, passed, Passage.append]
    rw [Token.written, walk_cons, hopen, walk_append, walk_parts, hclose]
    simp [Passage.append, Token.masked, Token.found, passed, passed_append]
  | literal l =>
    have hopen : (standing .code p).read '\'' (l.inside ++ ['\''] ++ behind) =
        (standing .code p).blank .code (l.inside.length + 1) := by
      rw [List.append_assoc, List.singleton_append]
      simp [read, readCode, standing, literalWidth?_inside ht]
    have hfeed : '\n' ∉ Token.written (.literal l) := by
      simp [Token.written, feed_notMem_inside]
    rw [passed_of_no_feed p hfeed, Token.written, walk_cons, hopen,
      walk_skip _ _ (by simp [blank, onward])]
    simp [Passage.append, Token.masked, Token.found, blank, blanks, onward, standing,
      List.replicate_succ, Nat.add_assoc, Nat.add_comm 1]

/-- **Tokens in a row are masked one by one**, as long as none is the escaped quote. -/
theorem walk_tokens {ts : List Token} (hts : Token.escapedQuote ∉ ts) (p : Nat × Nat)
    (behind : List Char) :
    (standing .code p).walk (ts.flatMap Token.written) behind =
      ⟨ts.flatMap Token.masked, bracketsAt p ts,
        standing .code (passed p (ts.flatMap Token.written))⟩ := by
  induction ts generalizing p with
  | nil => rfl
  | cons t ts ih =>
    obtain ⟨ht, hts⟩ := not_or.1 (List.mem_cons.not.1 hts)
    rw [List.flatMap_cons, walk_append, walk_token (Ne.symm ht), ih hts, passed_append]
    rfl

/-! ## The escaped quote -/

/-- A character in front of a quote is shown, if it is neither a quote itself nor a line feed. -/
theorem read_before_quote {c : Char} (hc : c ≠ '\'' ∧ c ≠ '\n') (p : Nat × Nat)
    (rest : List Char) : ((standing .code p).read c ('\'' :: rest)).shown = [c] := by
  have hnext (d : Char) (hd : '\'' ≠ d) : (c == '/' && ('\'' :: rest).head? == some d) = false := by
    simp [hd]
  simp only [read, readCode, standing, beq_iff_eq, hc, hnext '/' (by decide), hnext '*' (by decide),
    Bool.false_eq_true, if_false]
  split <;> rfl

/-- What a stray quote does to the text behind it: it is shown, or it hides a character and the
quote that follows. -/
theorem walk_stray (p : Nat × Nat) {cs : List Char} (hcs : cs.head? ≠ some '\\') :
    (∃ shown, ((standing .code p).walk ('\'' :: cs) []).shown = '\'' :: shown) ∨
      ∃ c rest, cs = c :: '\'' :: rest ∧ ((standing .code p).walk ('\'' :: cs) []).shown =
        ' ' :: ' ' :: ' ' :: ((standing .code (p.1, p.2 + 3)).walk rest []).shown := by
  have hshown (h : literalWidth? cs = none) :
      ∃ shown, ((standing .code p).walk ('\'' :: cs) []).shown = '\'' :: shown := by
    simp [walk, read, readCode, standing, h, keep, Passage.append]
  cases cs with
  | nil => exact Or.inl (hshown rfl)
  | cons c cs =>
    have hc : c ≠ '\\' := fun hc => hcs (congrArg some hc)
    cases cs with
    | nil => exact Or.inl (hshown (by simp [literalWidth?, hc]))
    | cons d rest =>
      have hwidth : literalWidth? (c :: d :: rest) =
          if c != '\n' && d == '\'' then some 2 else none := by
        rw [literalWidth?]
        exact hc
      by_cases h : c ≠ '\n' ∧ d = '\''
      · obtain ⟨hfeed, rfl⟩ := h
        refine Or.inr ⟨c, rest, rfl, ?_⟩
        simp [walk, read, readCode, standing, hwidth, hfeed, blank, onward, Passage.append]
      · refine Or.inl (hshown ?_)
        rw [hwidth, if_neg]
        simpa using h

/-- A token that is neither a space nor a literal is written and masked with the same character
in front, and this is none of those that literals are made of. -/
theorem first_of_token (t : Token) : t = .space ∨ (∃ l, t = .literal l) ∨
    ∃ c cs ds, t.written = c :: cs ∧ t.masked = c :: ds ∧ c ≠ ' ' ∧ c ≠ '\'' ∧ c ≠ '\\' := by
  cases t with
  | space => exact Or.inl rfl
  | literal l => exact Or.inr (Or.inl ⟨l, rfl⟩)
  | text parts => exact Or.inr (Or.inr ⟨_, _, _, rfl, rfl, by decide, by decide, by decide⟩)
  | bracket c h =>
    exact Or.inr (Or.inr ⟨c, [], [], rfl, rfl, ne_of_holds h rfl, ne_of_holds h rfl,
      ne_of_holds h rfl⟩)
  | word cs nonempty parts =>
    obtain ⟨c, cs, rfl⟩ := List.exists_cons_of_ne_nil nonempty
    have hc := parts c List.mem_cons_self
    exact Or.inr (Or.inr ⟨c, cs, cs, rfl, rfl, ne_of_holds hc rfl, ne_of_holds hc rfl,
      ne_of_holds hc rfl⟩)

/-- No token starts with a backslash. -/
theorem head?_tokens (ts : List Token) : (ts.flatMap Token.written).head? ≠ some '\\' := by
  cases ts with
  | nil => simp
  | cons t ts =>
    obtain rfl | ⟨l, rfl⟩ | ⟨c, cs, ds, hwritten, -, -, -, hc⟩ := first_of_token t
    · simp [Token.written]
    · simp [Token.written]
    · simp [hwritten, hc]

/-- Of all tokens only a literal starts with a quote. -/
theorem eq_literal_of_quote {ts : List Token} {rest : List Char}
    (h : ts.flatMap Token.written = '\'' :: rest) :
    ∃ l ts', ts = .literal l :: ts' ∧ rest = l.inside ++ '\'' :: ts'.flatMap Token.written := by
  cases ts with
  | nil => cases h
  | cons t ts =>
    rw [List.flatMap_cons] at h
    obtain rfl | ⟨l, rfl⟩ | ⟨c, cs, ds, hwritten, -, -, hc, -⟩ := first_of_token t
    · cases h
    · refine ⟨l, ts, rfl, ?_⟩
      simpa [Token.written] using (List.cons.inj h).2.symm
    · rw [hwritten] at h
      exact absurd (List.cons.inj h).1 hc

/-- A literal whose first quote is hidden shows a character between its quotes, or it is the
literal of the space, and its second quote is astray. -/
theorem stray_literal (l : CharLiteral) {ts : List Token}
    (ih : ∀ p, ((standing .code p).walk ('\'' :: ts.flatMap Token.written) []).shown ≠
      ' ' :: ts.flatMap Token.masked) (p : Nat × Nat) :
    ((standing .code p).walk (l.inside ++ '\'' :: ts.flatMap Token.written) []).shown ≠
      List.replicate (l.inside.length + 1) ' ' ++ ts.flatMap Token.masked := by
  intro h
  cases l with
  | plain c bare =>
    have hshown := read_before_quote ⟨bare.1, bare.2.2⟩ p (ts.flatMap Token.written)
    rw [CharLiteral.inside, List.singleton_append, walk_cons, List.append_nil, Passage.append,
      hshown] at h
    obtain ⟨rfl, hrest⟩ := List.cons.inj h
    rw [read_silent (by decide)] at hrest
    exact ih _ hrest
  | escape e =>
    rw [CharLiteral.inside, List.cons_append, walk_cons, read_silent (by decide)] at h
    exact absurd (List.cons.inj h).1 (by decide)

theorem inside_append_ne (l : CharLiteral) (cs rest : List Char) :
    l.inside ++ cs ≠ '\'' :: rest := by
  cases l with
  | plain c bare => exact fun h => bare.1 (List.cons.inj h).1
  | escape e => exact fun h => absurd (List.cons.inj h).1 (by decide)

/-- **A stray quote does not vanish**: where one is left in front of some tokens, it is not masked
as a space with the tokens behind it as they are to be. -/
theorem stray_quote (p : Nat × Nat) : ∀ ts : List Token,
    ((standing .code p).walk ('\'' :: ts.flatMap Token.written) []).shown ≠
      ' ' :: ts.flatMap Token.masked
  | [] => by
    simp [walk, read, readCode, standing, literalWidth?, keep, Passage.append]
  | t :: ts => by
    intro h
    obtain ⟨shown, hshown⟩ | ⟨c, rest, hcs, hshown⟩ := walk_stray p (head?_tokens (t :: ts))
    · -- the quote is shown where a space should stand
      rw [h] at hshown
      cases hshown
    rw [hshown, List.flatMap_cons] at h
    rw [List.flatMap_cons] at hcs
    obtain rfl | ⟨l, rfl⟩ | ⟨d, cs, ds, hwritten, hmasked, hd, -, -⟩ := first_of_token t
    · -- the space is hidden with the quote of a literal behind it
      obtain ⟨l, ts', rfl, rfl⟩ := eq_literal_of_quote (List.cons.inj hcs).2
      refine stray_literal l (fun q => stray_quote q ts') (p.1, p.2 + 3) ?_
      simpa [Token.masked, List.replicate_succ] using h
    · -- what stands behind the quote of a literal is no quote
      rw [Token.written, List.cons_append, List.append_assoc] at hcs
      exact inside_append_ne l _ _ (List.cons.inj hcs).2
    · -- the character in front of the token is hidden
      rw [hmasked] at h
      exact absurd (List.cons.inj (List.cons.inj h).2).1.symm hd

/-- Of the escaped quote the second quote is taken for the closing one. -/
theorem walk_escapedQuote (p : Nat × Nat) (rest : List Char) :
    ((standing .code p).walk (Token.escapedQuote.written ++ rest) []).shown =
      ' ' :: ' ' :: ' ' :: ((standing .code (p.1, p.2 + 3)).walk ('\'' :: rest) []).shown := rfl

/-- **Tokens are shown as they are to be masked** exactly where none is the escaped quote. -/
theorem shown_tokens_iff (ts : List Token) (p : Nat × Nat) :
    ((standing .code p).walk (ts.flatMap Token.written) []).shown = ts.flatMap Token.masked ↔
      Token.escapedQuote ∉ ts := by
  refine ⟨fun h => ?_, fun h => by rw [walk_tokens h]⟩
  induction ts generalizing p with
  | nil => exact List.not_mem_nil
  | cons t ts ih =>
    rw [List.flatMap_cons, List.flatMap_cons] at h
    by_cases ht : t = Token.escapedQuote
    · subst ht
      rw [walk_escapedQuote] at h
      have hstray := (List.cons.inj (List.cons.inj (List.cons.inj h).2).2).2
      exact absurd hstray (stray_quote _ ts)
    · rw [walk_append, walk_token ht] at h
      exact not_or.2 ⟨Ne.symm ht, ih _ (List.append_cancel_left h)⟩ ∘ List.mem_cons.1

end Scanner

/-! ## The masked lines -/

theorem count_feed_le {cs shown : List Char} (h : List.Forall₂ Masked cs shown) :
    shown.count '\n' ≤ cs.count '\n' := by
  induction h with
  | nil => exact Nat.le_refl _
  | @cons c d cs shown hmasked _ ih =>
    obtain rfl | rfl := hmasked
    · rw [List.count_cons, List.count_cons]
      omega
    · rw [List.count_cons_of_ne (by decide)]
      exact Nat.le_trans ih (List.count_le_count_cons ..)

/-- Of a masked text that does not end with a boundary no piece is left out. -/
theorem take_pieces {text shown : List Char} (h : List.Forall₂ Masked text shown)
    (hend : EndsInLine text) :
    (Text.pieces '\n' shown).take (Text.lines text).length = Text.pieces '\n' shown := by
  refine List.take_of_length_le ?_
  rw [Text.length_pieces]
  exact Nat.lt_of_le_of_lt (count_feed_le h) (Text.count_feed_lt hend)

theorem endsInLine_flatMap {f : Token → List Char} (h : ∀ t, EndsInLine (f t)) {ts : List Token}
    (hts : ts ≠ []) : EndsInLine (ts.flatMap f) := by
  obtain ⟨front, t, rfl⟩ := (List.eq_nil_or_concat' ts).resolve_left hts
  rw [List.flatMap_append, List.flatMap_singleton]
  exact (h t).append _

theorem not_boundary_of_isWordPart {c : Char} (h : isWordPart c = true) :
    isLineBoundary c = false := by
  rw [isWordPart, Bool.and_eq_true, Bool.not_eq_true'] at h
  exact h.2

theorem not_boundary_of_bracket {c : Char} (h : isBracket c = true) :
    isLineBoundary c = false := by
  simp only [isBracket, isOpening, isClosing, Bool.or_eq_true, beq_iff_eq] at h
  obtain ((rfl | rfl) | rfl) | ((rfl | rfl) | rfl) := h <;> decide

theorem endsInLine_word {cs : List Char} (hne : cs ≠ []) (h : ∀ c ∈ cs, isWordPart c = true) :
    EndsInLine cs := by
  obtain ⟨front, c, rfl⟩ := (List.eq_nil_or_concat' cs).resolve_left hne
  exact ⟨front, c, rfl, not_boundary_of_isWordPart (h c (by simp))⟩

theorem endsInLine_written (t : Token) : EndsInLine t.written := by
  cases t with
  | space => exact ⟨[], ' ', rfl, rfl⟩
  | word cs nonempty parts => exact endsInLine_word nonempty parts
  | bracket c h => exact ⟨[], c, rfl, not_boundary_of_bracket h⟩
  | text parts => exact ⟨'"' :: parts.flatMap TextPart.written, '"', rfl, rfl⟩
  | literal l => exact ⟨'\'' :: l.inside, '\'', rfl, rfl⟩

theorem endsInLine_masked (t : Token) : EndsInLine t.masked := by
  cases t with
  | space => exact ⟨[], ' ', rfl, rfl⟩
  | word cs nonempty parts => exact endsInLine_word nonempty parts
  | bracket c h => exact ⟨[], c, rfl, not_boundary_of_bracket h⟩
  | text parts => exact ⟨'"' :: (parts.flatMap TextPart.written).map Token.faded, '"', rfl, rfl⟩
  | literal l => exact ⟨List.replicate (l.inside.length + 1) ' ', ' ', List.replicate_succ', rfl⟩

theorem plain_masked (ts : List Token) : Plain (ts.flatMap Token.masked) := by
  intro c hc hbreak
  obtain ⟨t, -, hc⟩ := List.mem_flatMap.1 hc
  cases t with
  | space =>
    obtain rfl := List.mem_singleton.1 hc
    cases hbreak
  | word cs nonempty parts =>
    rw [not_boundary_of_isWordPart (parts c hc)] at hbreak
    cases hbreak
  | bracket d h =>
    obtain rfl := List.mem_singleton.1 hc
    rw [not_boundary_of_bracket h] at hbreak
    cases hbreak
  | text parts =>
    simp only [Token.masked, List.mem_cons, List.mem_append, List.mem_map, List.not_mem_nil,
      or_false] at hc
    obtain rfl | ⟨d, -, rfl⟩ | rfl := hc
    · cases hbreak
    · unfold Token.faded at hbreak ⊢
      split at hbreak
      · rename_i h
        rw [if_pos h]
      · cases hbreak
    · cases hbreak
  | literal l =>
    obtain rfl := (List.mem_replicate.1 hc).2
    cases hbreak

/-- **Main result.** A text of tokens is scanned to its end and masked as it is to be, with its
brackets found where they stand, exactly where no token is the escaped quote. -/
theorem mask_written_iff (ts : List Token) :
    mask (ts.flatMap Token.written) =
        .ok (Text.lineBodies (ts.flatMap Token.masked), bracketsAt (1, 1) ts) ↔
      Token.escapedQuote ∉ ts := by
  cases ts with
  | nil => exact iff_of_true rfl List.not_mem_nil
  | cons t ts =>
    have hne : t :: ts ≠ [] := List.cons_ne_nil t ts
    have hlines := Text.pieces_eq_lineBodies (plain_masked (t :: ts))
      (endsInLine_flatMap endsInLine_masked hne)
    have hend := endsInLine_flatMap endsInLine_written hne
    rw [← hlines]
    constructor
    · intro h
      obtain ⟨⟨shown, found⟩, hscan, hmask⟩ := ok_of_bind h
      obtain ⟨-, rfl, -⟩ := Scanner.scan_eq_ok.1 hscan
      have hpieces := (Prod.mk.inj (Except.ok.inj hmask)).1
      rw [take_pieces (Scanner.walk_masked .start _ []) hend] at hpieces
      exact (Scanner.shown_tokens_iff _ (1, 1)).1 (Text.pieces_injective hpieces)
    · intro h
      have hwalk := Scanner.walk_tokens h (1, 1) []
      have hmasked := Scanner.walk_masked (Scanner.standing .code (1, 1))
        ((t :: ts).flatMap Token.written) []
      rw [hwalk] at hmasked
      rw [mask, Scanner.scan_eq, Scanner.standing_start, hwalk]
      show Except.ok _ = _
      rw [take_pieces hmasked hend]

/-- The closing quote that an escaped quote leaves behind takes a space and the quote behind it for
a literal: the double quote of the next literal then opens a text, and nothing closes it. -/
theorem mask_escapedQuote : ∃ ts : List Token,
    ts.flatMap Token.written = "'\\'' '\"'".toList ∧
      mask (ts.flatMap Token.written) = .error (.openText 1 7) :=
  ⟨[Token.escapedQuote, .space, .literal (.plain '"' (by decide))], by decide +kernel,
    by decide +kernel⟩

end RepairLoop.Rust
