import Mathlib.Data.Bool.AllAny
import NetZer.Lib.Lines

/-! # Lossy decoding

`String::from_utf8_lossy` and the ASCII in what it decodes: an ASCII byte is
decoded to its character wherever it stands, and ends the sequence before it;
and it is the only byte that gives this character.
-/

namespace Text

/-! ## The bytes of a sequence -/

theorem forall_byte {P : UInt8 → Prop} (h : ∀ n < 256, P (UInt8.ofNat n)) (b : UInt8) : P b := by
  have hb := h b.toNat b.toNat_lt
  rwa [UInt8.ofNat_toNat] at hb

/-- The character with a byte's value. -/
theorem toNat_ofNat_byte (b : UInt8) : (Char.ofNat b.toNat).toNat = b.toNat := by
  have hlt := b.toNat_lt
  exact Unicode.toNat_ofNat_of_lt (by omega)

theorem eq_of_ofNat_byte {b : UInt8} {c : Char} (h : Char.ofNat b.toNat = c) :
    b = UInt8.ofNat c.toNat := by
  rw [← h, toNat_ofNat_byte, UInt8.ofNat_toNat]

theorem isCont_iff (b : UInt8) : isCont b = true ↔ 0x80 ≤ b ∧ b < 0xc0 :=
  forall_byte (P := fun b => isCont b = true ↔ 0x80 ≤ b ∧ b < 0xc0) (by decide +kernel) b

theorem le_of_range {lo hi b : UInt8} (h : (decide (lo ≤ b) && decide (b ≤ hi)) = true) :
    lo ≤ b ∧ b ≤ hi := by
  rwa [Bool.and_eq_true, decide_eq_true_eq, decide_eq_true_eq] at h

/-- What a mask of low bits leaves of a byte. -/
theorem toNat_and_low {m : UInt8} {k : Nat} (hm : m.toNat = 2 ^ k - 1) (b : UInt8) :
    (b &&& m).toNat = b.toNat % 2 ^ k := by
  rw [UInt8.toNat_and, hm, Nat.and_two_pow_sub_one_eq_mod]

/-- The second byte of a sequence is a continuation byte, whatever it leads on from. -/
theorem isCont_of_secondOk {lead b : UInt8} (h : secondOk lead b = true) : isCont b = true := by
  have hle : ∀ {lo hi : UInt8}, (decide (lo ≤ b) && decide (b ≤ hi)) = true → 0x80 ≤ lo →
      hi < 0xc0 → isCont b = true := by
    intro lo hi hb hlo hhi
    obtain ⟨hfrom, hto⟩ := le_of_range hb
    exact (isCont_iff b).mpr ⟨UInt8.le_trans hlo hfrom, UInt8.lt_of_le_of_lt hto hhi⟩
  unfold secondOk at h
  split at h
  · exact hle h (by decide) (by decide)
  · exact hle h (by decide) (by decide)
  · exact hle h (by decide) (by decide)
  · exact hle h (by decide) (by decide)
  · exact h

/-- The bytes do not go on with a sequence begun before them. -/
def Fresh (bytes : List UInt8) : Prop :=
  ∀ b ∈ bytes.head?, isCont b = false

theorem fresh_cons {b : UInt8} (h : b < 0x80) (bytes : List UInt8) : Fresh (b :: bytes) := by
  intro a ha
  obtain rfl : b = a := Option.some.inj ha
  rw [← Bool.not_eq_true, isCont_iff]
  intro hcont
  exact absurd h (UInt8.not_lt.mpr hcont.1)

/-- A sequence takes no more bytes than there are. -/
theorem decodeChar_le (lead : UInt8) (rest : List UInt8) :
    (decodeChar lead rest).2 ≤ rest.length := by
  rcases rest with _ | ⟨b1, _ | ⟨b2, _ | ⟨b3, rest⟩⟩⟩ <;> simp only [decodeChar] <;>
    split_ifs <;> simp

/-- A sequence takes nothing from bytes that do not go on with it. -/
theorem decodeChar_append {tail : List UInt8} (h : Fresh tail) (lead : UInt8)
    (rest : List UInt8) : decodeChar lead (rest ++ tail) = decodeChar lead rest := by
  cases tail with
  | nil => rw [List.append_nil]
  | cons t tail =>
      have hcont : isCont t = false := h t rfl
      have hsecond : secondOk lead t = false := by
        rw [← Bool.not_eq_true]
        intro hok
        rw [isCont_of_secondOk hok] at hcont
        cases hcont
      rcases rest with _ | ⟨b1, _ | ⟨b2, _ | ⟨b3, rest⟩⟩⟩ <;>
        simp [decodeChar, hcont, hsecond]

/-- What is decoded in one piece is decoded in two. -/
theorem decodeLossy_append {tail : List UInt8} (h : Fresh tail) {n : Nat} {bytes : List UInt8}
    (hn : n ≤ bytes.length) :
    decodeLossy n (bytes ++ tail) = decodeLossy n bytes ++ decodeLossy 0 tail := by
  induction bytes generalizing n with
  | nil =>
      obtain rfl : n = 0 := Nat.le_zero.mp hn
      rfl
  | cons b bytes ih =>
      cases n with
      | succ n =>
          rw [List.cons_append, decodeLossy, decodeLossy]
          exact ih (Nat.le_of_succ_le_succ hn)
      | zero =>
          rw [List.cons_append, decodeLossy, decodeLossy, decodeChar_append h,
            ih (decodeChar_le b bytes), List.cons_append]

/-- ASCII is decoded byte by byte. -/
theorem decodeLossy_ascii {bytes : List UInt8} (h : ∀ b ∈ bytes, b < 0x80) (tail : List UInt8) :
    decodeLossy 0 (bytes ++ tail) =
      bytes.map (fun b => Char.ofNat b.toNat) ++ decodeLossy 0 tail := by
  induction bytes with
  | nil => rfl
  | cons b bytes ih =>
      rw [List.forall_mem_cons] at h
      have hone : decodeChar b (bytes ++ tail) = (Char.ofNat b.toNat, 0) := by
        rw [decodeChar.eq_def, if_pos h.1]
      rw [List.cons_append, decodeLossy, hone, ih h.2, List.map_cons, List.cons_append]

/-- ASCII as text. -/
def asciiText (bytes : List UInt8) : String :=
  String.ofList (bytes.map fun b => Char.ofNat b.toNat)

theorem fromUtf8Lossy_ascii {bytes : List UInt8} (h : ∀ b ∈ bytes, b < 0x80) :
    fromUtf8Lossy bytes = asciiText bytes := by
  have hdecode := decodeLossy_ascii h []
  rw [List.append_nil, decodeLossy, List.append_nil] at hdecode
  rw [fromUtf8Lossy, hdecode, asciiText]

/-! ## The ASCII that is decoded -/

section

variable {c : Char} {lead b1 b2 b3 : UInt8}

theorem ne_replacement (hc : c.toNat < 0x80) : c ≠ replacement := by
  rintro rfl
  exact absurd hc (by decide)

theorem ne_scalar_two (hc : c.toNat < 0x80) (hne : c ≠ Char.ofNat 0) (hlo : 0xc2 ≤ lead)
    (hhi : lead ≤ 0xdf) : c ≠ scalar (lead &&& 0x1f).toNat [b1] := by
  have hbits : (lead &&& 0x1f).toNat = lead.toNat % 2 ^ 5 := toNat_and_low rfl lead
  have hfrom : 0xc2 ≤ lead.toNat := UInt8.le_iff_toNat_le.mp hlo
  have hto : lead.toNat ≤ 0xdf := UInt8.le_iff_toNat_le.mp hhi
  apply Unicode.ne_ofNat _ hne
  simp only [List.foldl_cons, List.foldl_nil, hbits]
  omega

theorem ne_scalar_three (hc : c.toNat < 0x80) (hne : c ≠ Char.ofNat 0) (hlo : 0xe0 ≤ lead)
    (hhi : lead ≤ 0xef) (hsecond : secondOk lead b1 = true) :
    c ≠ scalar (lead &&& 0x0f).toNat [b1, b2] := by
  have hbits : (lead &&& 0x0f).toNat = lead.toNat % 2 ^ 4 := toNat_and_low rfl lead
  have hfrom : 0xe0 ≤ lead.toNat := UInt8.le_iff_toNat_le.mp hlo
  have hto : lead.toNat ≤ 0xef := UInt8.le_iff_toNat_le.mp hhi
  apply Unicode.ne_ofNat _ hne
  simp only [List.foldl_cons, List.foldl_nil, hbits]
  by_cases hfirst : lead.toNat = 0xe0
  · -- the second byte makes up for the lead
    have hsix : (b1 &&& 0x3f).toNat = b1.toNat % 2 ^ 6 := toNat_and_low rfl b1
    rw [secondOk, hfirst] at hsecond
    obtain ⟨hlo1, hhi1⟩ := le_of_range hsecond
    have hfrom1 : 0xa0 ≤ b1.toNat := UInt8.le_iff_toNat_le.mp hlo1
    have hto1 : b1.toNat ≤ 0xbf := UInt8.le_iff_toNat_le.mp hhi1
    omega
  · omega

theorem ne_scalar_four (hc : c.toNat < 0x80) (hne : c ≠ Char.ofNat 0) (hlo : 0xf0 ≤ lead)
    (hhi : lead ≤ 0xf4) (hsecond : secondOk lead b1 = true) :
    c ≠ scalar (lead &&& 0x07).toNat [b1, b2, b3] := by
  have hbits : (lead &&& 0x07).toNat = lead.toNat % 2 ^ 3 := toNat_and_low rfl lead
  have hfrom : 0xf0 ≤ lead.toNat := UInt8.le_iff_toNat_le.mp hlo
  have hto : lead.toNat ≤ 0xf4 := UInt8.le_iff_toNat_le.mp hhi
  apply Unicode.ne_ofNat _ hne
  simp only [List.foldl_cons, List.foldl_nil, hbits]
  by_cases hfirst : lead.toNat = 0xf0
  · have hsix : (b1 &&& 0x3f).toNat = b1.toNat % 2 ^ 6 := toNat_and_low rfl b1
    rw [secondOk, hfirst] at hsecond
    obtain ⟨hlo1, hhi1⟩ := le_of_range hsecond
    have hfrom1 : 0x90 ≤ b1.toNat := UInt8.le_iff_toNat_le.mp hlo1
    have hto1 : b1.toNat ≤ 0xbf := UInt8.le_iff_toNat_le.mp hhi1
    omega
  · omega

/-- No longer sequence is decoded to an ASCII character. -/
theorem ne_decodeChar (hc : c.toNat < 0x80) (hne : c ≠ Char.ofNat 0) (hlead : ¬ lead < 0x80)
    (rest : List UInt8) : c ≠ (decodeChar lead rest).1 := by
  rw [decodeChar.eq_def, if_neg hlead]
  -- the sequence is cut short, has a wrong byte, or stands for a longer scalar
  split_ifs with htwo hthree hfour
  · rcases rest with _ | ⟨b1, rest⟩
    · exact ne_replacement hc
    · dsimp only
      split_ifs
      · exact ne_scalar_two hc hne (le_of_range htwo).1 (le_of_range htwo).2
      · exact ne_replacement hc
  · rcases rest with _ | ⟨b1, _ | ⟨b2, rest⟩⟩ <;> dsimp only
    · exact ne_replacement hc
    · split_ifs <;> exact ne_replacement hc
    · split_ifs with hsecond
      · exact ne_scalar_three hc hne (le_of_range hthree).1 (le_of_range hthree).2 hsecond
      · exact ne_replacement hc
      · exact ne_replacement hc
  · rcases rest with _ | ⟨b1, _ | ⟨b2, _ | ⟨b3, rest⟩⟩⟩ <;> dsimp only
    · exact ne_replacement hc
    · split_ifs <;> exact ne_replacement hc
    · split_ifs <;> exact ne_replacement hc
    · split_ifs with hsecond
      · exact ne_scalar_four hc hne (le_of_range hfour).1 (le_of_range hfour).2 hsecond
      · exact ne_replacement hc
      · exact ne_replacement hc
      · exact ne_replacement hc
  · exact ne_replacement hc

/-- An ASCII character has been decoded from its byte. -/
theorem mem_decodeLossy (hc : c.toNat < 0x80) (hne : c ≠ Char.ofNat 0) {n : Nat}
    {bytes : List UInt8} (h : c ∈ decodeLossy n bytes) : UInt8.ofNat c.toNat ∈ bytes := by
  induction bytes generalizing n with
  | nil => simp [decodeLossy] at h
  | cons b bytes ih =>
      cases n with
      | succ n =>
          rw [decodeLossy] at h
          exact List.mem_cons_of_mem b (ih h)
      | zero =>
          rw [decodeLossy, List.mem_cons] at h
          rcases h with h | h
          · by_cases hb : b < 0x80
            · rw [decodeChar.eq_def, if_pos hb] at h
              rw [← eq_of_ofNat_byte h.symm]
              exact List.mem_cons_self
            · exact absurd h (ne_decodeChar hc hne hb bytes)
          · exact List.mem_cons_of_mem b (ih h)

end

/-! ## Decoded lines -/

/-- What ends a line. -/
def crlf : List UInt8 := [0x0d, 0x0a]

section

variable {l rest : List UInt8}

theorem newline_not_mem_decodeLossy (h : 0x0a ∉ l) : '\n' ∉ decodeLossy 0 l := fun hmem =>
  h (mem_decodeLossy (by decide) (by decide) hmem)

theorem lines_fromUtf8Lossy (h : 0x0a ∉ l) (rest : List UInt8) :
    lines (fromUtf8Lossy (l ++ crlf ++ rest)) = fromUtf8Lossy l :: lines (fromUtf8Lossy rest) := by
  have hcrlf : ∀ b ∈ crlf, b < 0x80 := List.all_iff_forall_prop.mp (by decide)
  have hfresh : Fresh (crlf ++ rest) := fresh_cons (by decide : (0x0d : UInt8) < 0x80) _
  have hdecode : decodeLossy 0 (l ++ crlf ++ rest) =
      decodeLossy 0 l ++ '\r' :: '\n' :: decodeLossy 0 rest := by
    rw [List.append_assoc, decodeLossy_append hfresh (Nat.zero_le _), decodeLossy_ascii hcrlf]
    rfl
  rw [fromUtf8Lossy, hdecode, lines_crlf (newline_not_mem_decodeLossy h)]
  rfl

/-- The lines of the first bytes: a line that is not all there, or not ended, is the
last one, and may hold the carriage return. -/
theorem lines_take (h : 0x0a ∉ l) (rest : List UInt8) (n : Nat) :
    lines (fromUtf8Lossy ((l ++ crlf ++ rest).take n)) =
      if l.length + 2 ≤ n then
        fromUtf8Lossy l :: lines (fromUtf8Lossy (rest.take (n - (l.length + 2))))
      else if n = 0 then []
      else [fromUtf8Lossy ((l ++ [0x0d]).take n)] := by
  have hlen : (l ++ crlf).length = l.length + 2 := List.length_append
  split_ifs with hall hzero
  · rw [List.take_append, hlen, List.take_of_length_le (hlen ▸ hall), lines_fromUtf8Lossy h]
  · rw [hzero, List.take_zero]
    rfl
  · have htake : (l ++ crlf ++ rest).take n = (l ++ [0x0d]).take n := by
      have hsplit : l ++ crlf ++ rest = l ++ [0x0d] ++ 0x0a :: rest := by
        rw [List.append_assoc, List.append_assoc]
        rfl
      rw [hsplit, List.take_append_of_le_length]
      rw [List.length_append, List.length_singleton]
      omega
    have hcut : 0x0a ∉ (l ++ [0x0d]).take n := by
      intro hmem
      rcases List.mem_append.mp (List.mem_of_mem_take hmem) with hl | hcr
      · exact h hl
      · exact absurd hcr (by decide)
    have hne : decodeLossy 0 ((l ++ [0x0d]).take n) ≠ [] := by
      cases hbytes : (l ++ [0x0d]).take n with
      | nil =>
          have hnil := congrArg List.length hbytes
          rw [List.length_take, List.length_append] at hnil
          simp at hnil
          omega
      | cons b bytes =>
          rw [decodeLossy]
          exact List.cons_ne_nil _ _
    rw [htake]
    exact lines_last (newline_not_mem_decodeLossy hcut) hne

end

section

variable {name : List UInt8}

theorem colon_not_mem (h : ∀ b ∈ name, b < 0x80 ∧ b ≠ 0x3a) :
    ':' ∉ name.map fun b => Char.ofNat b.toNat := by
  rw [List.mem_map]
  rintro ⟨b, hb, heq⟩
  exact (h b hb).2 (eq_of_ofNat_byte heq)

/-- A line that ends before its colon. -/
theorem splitColon_fromUtf8Lossy_name (h : ∀ b ∈ name, b < 0x80 ∧ b ≠ 0x3a) :
    splitColon (fromUtf8Lossy name) = none := by
  rw [fromUtf8Lossy_ascii fun b hb => (h b hb).1, asciiText]
  exact splitColon_eq_none (by rw [String.toList_ofList]; exact colon_not_mem h)

theorem splitColon_fromUtf8Lossy (h : ∀ b ∈ name, b < 0x80 ∧ b ≠ 0x3a) (value : List UInt8) :
    splitColon (fromUtf8Lossy (name ++ 0x3a :: value)) =
      some (asciiText name, fromUtf8Lossy value) := by
  have hcolon : ∀ b ∈ ([0x3a] : List UInt8), b < 0x80 := List.all_iff_forall_prop.mp (by decide)
  rw [fromUtf8Lossy, decodeLossy_ascii fun b hb => (h b hb).1, ← List.singleton_append,
    decodeLossy_ascii hcolon]
  exact splitColon_append (colon_not_mem h)

end

end Text
