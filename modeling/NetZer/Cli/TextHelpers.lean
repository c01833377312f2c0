import NetZer.Cli.Format

/-! # The text helpers

`truncate` cuts a text where three bytes before the end of the characters it may
keep are left. Those bytes are three characters of ASCII text; of any other text
they may be fewer characters, or end inside one.
-/

namespace NetZer

open Rust Text

/-! ## `truncate` -/

section

variable {s : String} {n : Nat}

/-- A text that is short enough is left as it is. -/
theorem truncate_of_le (h : s.length ≤ n) : truncate s n = .ok s := by
  have hnone : charIndex s n = none := by
    rw [charIndex, List.getElem?_eq_none (by rwa [String.length_toList]), Option.map_none]
  rw [truncate, calling_eq_ok, hnone]
  rfl

/-- What is kept of a longer one ends three bytes before the limit. -/
theorem truncate_eq_ok_iff (hn : 3 ≤ n) (h : n < s.length) {r : String} :
    truncate s n = .ok r ↔ ∃ kept : List Char, kept <+: s.toList ∧
      byteLen kept + 3 = byteLen (s.toList.take n) ∧ r = String.ofList kept ++ "..." := by
  have hlt : n < s.toList.length := by rwa [String.length_toList]
  have hindex : charIndex s n = some (byteLen (s.toList.take n), s.toList[n]) := by
    rw [charIndex, List.getElem?_eq_getElem hlt, Option.map_some]
  have hthree : 3 ≤ byteLen (s.toList.take n) := by
    have hle := length_le_byteLen (s.toList.take n)
    rw [List.length_take_of_le (by omega)] at hle
    omega
  have hsub : (sub (byteLen (s.toList.take n)) 3 : Run Nat) =
      .ok (byteLen (s.toList.take n) - 3) := if_pos hthree
  rw [truncate, calling_eq_ok, hindex]
  simp only [hsub, ok_bind, sliceTo]
  -- cutting inside a character panics
  cases hcut : takeBytes s.toList (byteLen (s.toList.take n) - 3) with
  | none =>
      refine iff_of_false (fun hr => by cases hr) ?_
      rintro ⟨kept, hstarts, hlen, -⟩
      rw [takeBytes_eq_some_iff.mpr ⟨hstarts, by omega⟩] at hcut
      cases hcut
  | some cs =>
      obtain ⟨hstarts, hlen⟩ := takeBytes_eq_some_iff.mp hcut
      constructor
      · intro hr
        exact ⟨cs, hstarts, by omega, (Except.ok.inj hr).symm⟩
      · rintro ⟨kept, hstarts', hlen', rfl⟩
        have hkept : takeBytes s.toList (byteLen (s.toList.take n) - 3) = some kept :=
          takeBytes_eq_some_iff.mpr ⟨hstarts', by omega⟩
        rw [hcut, Option.some.injEq] at hkept
        rw [hkept]
        rfl

/-- Cutting off three bytes leaves room for three dots exactly if they are three
characters. -/
theorem exists_kept_iff (hn : 3 ≤ n) (h : n < s.length) :
    (∃ kept : List Char, kept <+: s.toList ∧ byteLen kept + 3 = byteLen (s.toList.take n) ∧
        kept.length + 3 ≤ n) ↔
      ∀ c ∈ (s.toList.take n).drop (n - 3), c.utf8Size = 1 := by
  have hlt : n < s.toList.length := by rwa [String.length_toList]
  have hlen : (s.toList.take n).length = n := List.length_take_of_le (by omega)
  have hlast : ((s.toList.take n).drop (n - 3)).length = 3 := by
    rw [List.length_drop, hlen]
    omega
  have hsplit : byteLen (s.toList.take n) = byteLen ((s.toList.take n).take (n - 3)) +
      byteLen ((s.toList.take n).drop (n - 3)) := by
    rw [← byteLen_append, List.take_append_drop]
  rw [← byteLen_eq_length_iff, hlast]
  constructor
  · rintro ⟨kept, hstarts, hbytes, hroom⟩
    -- what is kept is at most the first `n - 3` characters
    have hkept : kept = (s.toList.take n).take kept.length := by
      rw [List.take_take, Nat.min_eq_left (by omega)]
      exact List.prefix_iff_eq_take.mp hstarts
    have hfront : byteLen kept ≤ byteLen ((s.toList.take n).take (n - 3)) := by
      have hmin : min kept.length (n - 3) = kept.length := by omega
      have happend := List.take_append_drop kept.length ((s.toList.take n).take (n - 3))
      rw [List.take_take, hmin, ← hkept] at happend
      rw [← happend, byteLen_append]
      exact Nat.le_add_right _ _
    have hle := length_le_byteLen ((s.toList.take n).drop (n - 3))
    omega
  · intro hascii
    refine ⟨(s.toList.take n).take (n - 3), ?_, by omega, ?_⟩
    · exact (List.take_prefix _ _).trans (List.take_prefix _ _)
    · rw [List.length_take, hlen]
      omega

end

/-- `truncate` returns a text of at most `maxChars` characters, the text itself
or a prefix of it and three dots, exactly if the text is that short or the last
three characters it may keep are ASCII. -/
theorem truncate_fits_iff (s : String) (maxChars : Nat) (h : 3 ≤ maxChars) :
    (∃ r, truncate s maxChars = .ok r ∧ r.length ≤ maxChars ∧
        (s.length ≤ maxChars → r = s) ∧
        (maxChars < s.length → ∃ p : String, p.toList <+: s.toList ∧ r = p ++ "...")) ↔
      s.length ≤ maxChars ∨
        ∀ c ∈ (s.toList.take maxChars).drop (maxChars - 3), c.toNat < 0x80 := by
  by_cases hle : s.length ≤ maxChars
  · have hlong : ¬ maxChars < s.length := by omega
    refine iff_of_true ⟨s, truncate_of_le hle, hle, fun _ => rfl, ?_⟩ (Or.inl hle)
    intro hlt
    exact absurd hlt hlong
  · have hlt : maxChars < s.length := by omega
    -- an ASCII character is one byte
    have hsize : ∀ c : Char, c.toNat < 0x80 ↔ c.utf8Size = 1 := by
      intro c
      rw [Char.utf8Size_eq_one_iff, UInt32.le_iff_toNat_le]
      exact Nat.lt_succ_iff
    have hlength : ∀ kept : List Char, (String.ofList kept ++ "...").length = kept.length + 3 := by
      intro kept
      rw [String.length_append, String.length_ofList]
      rfl
    simp only [hle, hlt, false_imp_iff, true_imp_iff, true_and, false_or, hsize,
      truncate_eq_ok_iff h hlt, ← exists_kept_iff h hlt]
    constructor
    · rintro ⟨r, ⟨kept, hstarts, hbytes, rfl⟩, hlen, -⟩
      exact ⟨kept, hstarts, hbytes, hlength kept ▸ hlen⟩
    · rintro ⟨kept, hstarts, hbytes, hroom⟩
      refine ⟨_, ⟨kept, hstarts, hbytes, rfl⟩, (hlength kept).symm ▸ hroom,
        String.ofList kept, ?_, rfl⟩
      rw [String.toList_ofList]
      exact hstarts

theorem truncate_fits_ascii :
    3 ≤ 5 ∧ ((∃ r, truncate "netzer" 5 = .ok r ∧ r.length ≤ 5 ∧
        ("netzer".length ≤ 5 → r = "netzer") ∧
        (5 < "netzer".length → ∃ p : String, p.toList <+: "netzer".toList ∧ r = p ++ "...")) ↔
      "netzer".length ≤ 5 ∨ ∀ c ∈ ("netzer".toList.take 5).drop (5 - 3), c.toNat < 0x80) :=
  ⟨by decide, truncate_fits_iff "netzer" 5 (by decide)⟩

/-- Three bytes may be part of two characters, and the cut inside one of them. -/
theorem truncate_panics_inside_character :
    ¬ ∀ (s : String) (maxChars : Nat), 3 ≤ maxChars →
      ∃ r, truncate s maxChars = .ok r ∧ r.length ≤ maxChars ∧
        (s.length ≤ maxChars → r = s) ∧
        (maxChars < s.length → ∃ p : String, p.toList <+: s.toList ∧ r = p ++ "...") := by
  intro hall
  obtain ⟨r, hr, -⟩ := hall (String.ofList (List.replicate 31 'é')) 30 (by decide)
  have hpanic : truncate (String.ofList (List.replicate 31 'é')) 30 =
      .error ⟨.charBoundary, [.truncate]⟩ := by
    decide
  rw [hpanic] at hr
  cases hr

end NetZer
