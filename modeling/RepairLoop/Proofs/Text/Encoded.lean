import RepairLoop.Text.Encoded
/-!
# Text — what is encoded is read back

A character comes to one, two, three or four bytes, and these are read as the
character again whatever follows them (`decodeOne_encoded`). So a lossy
reading of an encoded text loses nothing (`decodeLossy_toUTF8`).
-/

namespace RepairLoop.Text

/-! ## The bytes of a text -/

theorem toList_loop (bytes : ByteArray) (i : Nat) (read : List UInt8) :
    ByteArray.toList.loop bytes i read = read.reverse ++ bytes.data.toList.drop i := by
  fun_induction ByteArray.toList.loop bytes i read with
  | case1 i read hlt ih =>
    have hlen : i < bytes.data.toList.length := by
      rw [Array.length_toList]
      exact hlt
    have hget : bytes.get! i = bytes.data.toList[i] := by
      rw [ByteArray.get!, Array.getElem_toList, getElem!_pos bytes.data i hlt]
    rw [ih, List.drop_eq_getElem_cons hlen, hget, List.reverse_cons, List.append_assoc,
      List.singleton_append]
  | case2 i read hge =>
    have hlen : bytes.data.toList.length ≤ i := by
      rw [Array.length_toList]
      exact Nat.le_of_not_lt hge
    rw [List.drop_of_length_le hlen, List.append_nil]

/-- The bytes as a list. -/
theorem toList_eq_data (bytes : ByteArray) : bytes.toList = bytes.data.toList := by
  rw [ByteArray.toList, toList_loop]
  rfl

theorem toList_toUTF8 (s : String) : s.toUTF8.toList = s.toList.flatMap String.utf8EncodeChar := by
  rw [toList_eq_data, String.toUTF8, ← String.utf8Encode_toList]
  exact List.toList_data_toByteArray

/-! ## Bytes by their numbers -/

theorem toNat_byte {n : Nat} (h : n < 256) : (UInt8.ofNat n).toNat = n := UInt8.toNat_ofNat_of_lt' h

theorem isContinuation_iff {b : UInt8} :
    isContinuation b = true ↔ 0x80 ≤ b.toNat ∧ b.toNat < 0xc0 := by
  simp [isContinuation, UInt8.le_iff_toNat_le, UInt8.lt_iff_toNat_lt]

/-- The continuation that holds the last six bits of a number. -/
theorem isContinuation_byte (n : Nat) : isContinuation (UInt8.ofNat (n % 64 + 128)) = true := by
  rw [isContinuation_iff, toNat_byte (by omega)]
  omega

theorem six_byte (n : Nat) : six (UInt8.ofNat (n % 64 + 128)) = n % 64 := by
  rw [six, toNat_byte (by omega)]
  omega

theorem fitsLead_iff {lead b : UInt8} (hb : isContinuation b = true) : fitsLead lead b = true ↔
    (lead.toNat = 0xe0 → 0xa0 ≤ b.toNat) ∧ (lead.toNat = 0xed → b.toNat < 0xa0) ∧
      (lead.toNat = 0xf0 → 0x90 ≤ b.toNat) ∧ (lead.toNat = 0xf4 → b.toNat < 0x90) := by
  simp only [fitsLead, hb, Bool.true_and, Bool.and_eq_true, Bool.not_eq_true',
    Bool.and_eq_false_imp, beq_iff_eq, decide_eq_false_iff_not, ← UInt8.toNat_inj,
    UInt8.le_iff_toNat_le, UInt8.lt_iff_toNat_lt, and_assoc, Nat.not_le, Nat.not_lt]
  rfl

/-! ## One character -/

variable (rest : List UInt8) {v : Nat}

theorem decodeOne_one (h : v ≤ 127) :
    decodeOne (UInt8.ofNat v) rest = ⟨.ok (Char.ofNat v), 1⟩ := by
  have hlead := toNat_byte (show v < 256 by omega)
  have hlow : UInt8.ofNat v < 0x80 := by
    rw [UInt8.lt_iff_toNat_lt, hlead]
    exact Nat.lt_succ_of_le h
  unfold decodeOne
  rw [if_pos hlow, hlead]

/-- A byte that leads some more is no character of its own and no fault. -/
theorem lead_tests (hlow : 0xc2 ≤ v) (hhigh : v < 0xf5) : ¬ UInt8.ofNat v < 0x80 ∧
    ¬ (UInt8.ofNat v < 0xc2 || 0xf5 ≤ UInt8.ofNat v) = true ∧
    (UInt8.ofNat v < 0xe0 ↔ v < 0xe0) ∧ (UInt8.ofNat v < 0xf0 ↔ v < 0xf0) := by
  have hlead := toNat_byte (show v < 256 by omega)
  simp only [UInt8.lt_iff_toNat_lt, UInt8.le_iff_toNat_le, hlead, Bool.or_eq_true,
    decide_eq_true_eq]
  refine ⟨fun h => ?_, fun h => ?_, Iff.rfl, Iff.rfl⟩
  · exact absurd (show v < 0x80 from h) (by omega)
  · rcases h with h | h
    · exact absurd (show v < 0xc2 from h) (by omega)
    · exact absurd (show 0xf5 ≤ v from h) (by omega)

theorem decodeOne_two (hlow : ¬ v ≤ 127) (hhigh : v ≤ 2047) :
    decodeOne (UInt8.ofNat (v / 64 % 32 + 192)) (UInt8.ofNat (v % 64 + 128) :: rest) =
      ⟨.ok (Char.ofNat v), 2⟩ := by
  have hbyte := toNat_byte (show v / 64 % 32 + 192 < 256 by omega)
  obtain ⟨hone, hfault, htwo, -⟩ :=
    lead_tests (show 0xc2 ≤ v / 64 % 32 + 192 by omega) (by omega)
  have hvalue : (v / 64 % 32 + 192) % 32 * 64 + v % 64 = v := by omega
  unfold decodeOne
  rw [if_neg hone, if_neg hfault, if_pos (htwo.2 (by omega))]
  simp only [isContinuation_byte, if_true, six_byte, hbyte, hvalue]

theorem decodeOne_three (hlow : ¬ v ≤ 2047) (hhigh : v ≤ 65535)
    (hvalid : v < 0xd800 ∨ 0xdfff < v) :
    decodeOne (UInt8.ofNat (v / 4096 % 16 + 224))
      (UInt8.ofNat (v / 64 % 64 + 128) :: UInt8.ofNat (v % 64 + 128) :: rest) =
        ⟨.ok (Char.ofNat v), 3⟩ := by
  have hbyte := toNat_byte (show v / 4096 % 16 + 224 < 256 by omega)
  have hnext := toNat_byte (show v / 64 % 64 + 128 < 256 by omega)
  obtain ⟨hone, hfault, htwo, hthree⟩ :=
    lead_tests (show 0xc2 ≤ v / 4096 % 16 + 224 by omega) (by omega)
  have hfits : fitsLead (UInt8.ofNat (v / 4096 % 16 + 224)) (UInt8.ofNat (v / 64 % 64 + 128)) =
      true := by
    rw [fitsLead_iff (isContinuation_byte _), hbyte, hnext]
    -- the leads with a rule of their own are those of the smallest numbers and of the surrogates
    omega
  have hvalue : (v / 4096 % 16 + 224) % 16 * 4096 + v / 64 % 64 * 64 + v % 64 = v := by omega
  unfold decodeOne
  rw [if_neg hone, if_neg hfault, if_neg (mt htwo.1 (by omega))]
  simp only [hfits, isContinuation_byte, hthree.2 (by omega), six_byte, hbyte, hvalue, if_true]
  rfl

theorem decodeOne_four (hlow : ¬ v ≤ 65535) (hhigh : v < 0x110000) :
    decodeOne (UInt8.ofNat (v / 262144 % 8 + 240))
      (UInt8.ofNat (v / 4096 % 64 + 128) :: UInt8.ofNat (v / 64 % 64 + 128) ::
        UInt8.ofNat (v % 64 + 128) :: rest) = ⟨.ok (Char.ofNat v), 4⟩ := by
  have hbyte := toNat_byte (show v / 262144 % 8 + 240 < 256 by omega)
  have hnext := toNat_byte (show v / 4096 % 64 + 128 < 256 by omega)
  obtain ⟨hone, hfault, htwo, hthree⟩ :=
    lead_tests (show 0xc2 ≤ v / 262144 % 8 + 240 by omega) (by omega)
  have hfits : fitsLead (UInt8.ofNat (v / 262144 % 8 + 240)) (UInt8.ofNat (v / 4096 % 64 + 128)) =
      true := by
    rw [fitsLead_iff (isContinuation_byte _), hbyte, hnext]
    omega
  have hvalue : (v / 262144 % 8 + 240) % 8 * 262144 + v / 4096 % 64 * 4096 + v / 64 % 64 * 64 +
      v % 64 = v := by omega
  unfold decodeOne
  rw [if_neg hone, if_neg hfault, if_neg (mt htwo.1 (by omega))]
  simp only [hfits, isContinuation_byte, mt hthree.1 (by omega), six_byte, hbyte, hvalue, if_true]
  rfl

/-- **The bytes of a character are read as that character.** -/
theorem decodeOne_encoded (c : Char) : ∃ b bs, String.utf8EncodeChar c = b :: bs ∧
    decodeOne b (bs ++ rest) = ⟨.ok c, bs.length + 1⟩ := by
  have hchar : Char.ofNat c.val.toNat = c := Char.ofNat_toNat c
  have hvalid : c.val.toNat < 0xd800 ∨ 0xdfff < c.val.toNat ∧ c.val.toNat < 0x110000 := c.valid
  unfold String.utf8EncodeChar
  simp only
  split
  · rename_i h
    have hone := decodeOne_one rest h
    rw [hchar] at hone
    exact ⟨_, _, rfl, hone⟩
  split
  · rename_i h h'
    have htwo := decodeOne_two rest h h'
    rw [hchar] at htwo
    exact ⟨_, _, rfl, htwo⟩
  split
  · rename_i h h'
    have hthree := decodeOne_three rest h h' (hvalid.imp_right And.left)
    rw [hchar] at hthree
    exact ⟨_, _, rfl, hthree⟩
  · rename_i h
    have hfour := decodeOne_four rest h
      (hvalid.elim (fun hsmall => Nat.lt_trans hsmall (by decide)) And.right)
    rw [hchar] at hfour
    exact ⟨_, _, rfl, hfour⟩

/-! ## The whole text -/

theorem decodeFrom_passed (bs rest : List UInt8) :
    decodeFrom bs.length (bs ++ rest) = decodeFrom 0 rest := by
  induction bs with
  | nil => rfl
  | cons b bs ih =>
    rw [List.length_cons, List.cons_append, decodeFrom]
    exact ih

theorem decodeFrom_encoded (cs : List Char) :
    (decodeFrom 0 (cs.flatMap String.utf8EncodeChar)).map Decoded.char = cs.map .ok := by
  induction cs with
  | nil => rfl
  | cons c cs ih =>
    obtain ⟨b, bs, hbytes, hread⟩ := decodeOne_encoded (cs.flatMap String.utf8EncodeChar) c
    rw [List.flatMap_cons, hbytes, List.cons_append, decodeFrom, hread]
    simp only [Nat.add_sub_cancel, List.map_cons]
    rw [decodeFrom_passed, ih]

/-- The character that a lossy reading puts. -/
def orMark : Except ByteFault Char → Char
  | .ok c => c
  | .error _ => '\ufffd'

/-- **A lossy reading of an encoded text is the text.** -/
theorem decodeLossy_toUTF8 (s : String) : decodeLossy s.toUTF8 = s := by
  have hchars := congrArg (List.map orMark) (decodeFrom_encoded s.toList)
  rw [List.map_map, List.map_map] at hchars
  have hread := hchars.trans (List.map_id s.toList)
  rw [← toList_toUTF8] at hread
  exact (congrArg String.ofList hread).trans String.ofList_toList

/-- An encoded text is read as what it was. -/
theorem decode_toUTF8 (s : String) : decode s.toUTF8 = .ok s := by
  have hread : String.fromUTF8? s.toUTF8 = some s := by
    rw [String.fromUTF8?, String.toUTF8_eq_toByteArray, dif_pos s.isValidUTF8]
    rfl
  rw [decode, hread]

end RepairLoop.Text
