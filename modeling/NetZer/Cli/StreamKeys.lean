import Mathlib.Data.Prod.Lex
import Mathlib.Data.Sym.Sym2.Order
import NetZer.Cli.Datagram

/-! # The keys of connections

`StreamKey::new` compares addresses as the texts they are printed as. That order
is not the order of the addresses, but it is a total order of texts, so the key
of two endpoints is the pair of them in that order, whichever comes from where;
and as no two addresses are printed alike, the key says which two they are.
-/

namespace NetZer

open Text

/-! ## Addresses of version 6 as texts -/

theorem hexPairs_injective {l l' : List UInt8} {n : Nat} (hl : l.length = 2 * n)
    (hl' : l'.length = 2 * n) (h : hexPairs l = hexPairs l') : l = l' := by
  induction n generalizing l l' with
  | zero =>
      rw [List.eq_nil_of_length_eq_zero hl, List.eq_nil_of_length_eq_zero hl']
  | succ n ih =>
      match l, l', hl, hl' with
      | a :: b :: l, c :: d :: l', hl, hl' =>
          simp only [List.length_cons] at hl hl'
          rw [hexPairs, hexPairs, List.cons.injEq] at h
          obtain ⟨hpair, hrest⟩ := h
          obtain ⟨hac, hbd⟩ := hex_two_append_inj a.toNat_lt b.toNat_lt c.toNat_lt d.toNat_lt hpair
          rw [UInt8.toNat_inj.mp hac, UInt8.toNat_inj.mp hbd, ih (by omega) (by omega) hrest]

theorem not_mem_hexPairs {c : Char} (hc : ∀ d < 16, (d.digitChar == c) = false)
    {l : List UInt8} : ∀ s ∈ hexPairs l, c ∉ s.toList := by
  have hhex : ∀ b : UInt8, Avoids (· == c) (hex 2 b.toNat) := fun b =>
    avoids_leftpad (by decide) hc 2 b.toNat
  induction l using hexPairs.induct with
  | case1 a b l ih =>
      rw [hexPairs, List.forall_mem_cons]
      refine ⟨fun hmem => ?_, ih⟩
      have havoids : Avoids (· == c) (hex 2 a.toNat ++ hex 2 b.toNat) :=
        avoids_append.mpr ⟨hhex a, hhex b⟩
      simpa using havoids c hmem
  | case2 l hshort => simp [hexPairs]

theorem Ipv6Address.display_injective : Function.Injective Ipv6Address.display := by
  have hne : ∀ a : Ipv6Address, hexPairs a.octets.toList ≠ [] := by
    rintro ⟨⟨⟨l⟩, hl⟩⟩
    match l, hl with
    | b :: b' :: rest, _ => exact List.cons_ne_nil _ _
  have hcolon : ∀ a : Ipv6Address, ∀ s ∈ hexPairs a.octets.toList, ':' ∉ s.toList := fun a =>
    not_mem_hexPairs (by decide)
  intro a b h
  have hparts := intercalate_inj (hne a) (hne b) (hcolon a) (hcolon b) h
  have hlen : ∀ a : Ipv6Address, a.octets.toList.length = 2 * 8 := fun a => by simp
  have hoctets : a.octets = b.octets :=
    Vector.toList_inj.mp (hexPairs_injective (hlen a) (hlen b) hparts)
  exact congrArg Ipv6Address.mk hoctets

/-- No two addresses are printed alike, not even of different versions. -/
theorem NetAddress.display_injective : Function.Injective NetAddress.display := by
  have hapart : ∀ (a : Ipv4Address) (b : Ipv6Address), a.display ≠ b.display := by
    intro a b h
    exact a.colon_not_mem_display (h ▸ b.colon_mem_display)
  intro a b h
  match a, b, h with
  | .v4 a, .v4 b, h => exact congrArg v4 (Ipv4Address.display_injective h)
  | .v6 a, .v6 b, h => exact congrArg v6 (Ipv6Address.display_injective h)
  | .v4 a, .v6 b, h => exact absurd h (hapart a b)
  | .v6 a, .v4 b, h => exact absurd h.symm (hapart b a)

/-! ## Keys -/

/-- One end of a connection. -/
structure ConnectionEnd where
  address : NetAddress
  port : UInt16
deriving DecidableEq

/-- The key of a segment from one end to the other. -/
def StreamKey.between (a b : ConnectionEnd) : StreamKey :=
  .new a.address.display a.port b.address.display b.port

/-- What `StreamKey::new` compares: pairs of a text and a port. -/
abbrev Rank := String ×ₗ Nat

def ConnectionEnd.rank (a : ConnectionEnd) : Rank :=
  toLex (a.address.display, a.port.toNat)

theorem ConnectionEnd.rank_injective : Function.Injective ConnectionEnd.rank := by
  rintro ⟨address, port⟩ ⟨address', port'⟩ h
  simp only [rank, toLex_inj, Prod.mk.injEq] at h
  rw [NetAddress.display_injective h.1, UInt16.toNat_inj.mp h.2]

/-- The two halves of a key. -/
def StreamKey.ranks (key : StreamKey) : Rank × Rank :=
  (toLex (key.clientIp, key.clientPort.toNat), toLex (key.serverIp, key.serverPort.toNat))

theorem StreamKey.ranks_injective : Function.Injective StreamKey.ranks := by
  rintro ⟨clientIp, clientPort, serverIp, serverPort⟩
    ⟨clientIp', clientPort', serverIp', serverPort'⟩ h
  simp only [ranks, Prod.mk.injEq, toLex_inj] at h
  obtain ⟨⟨rfl, hclient⟩, rfl, hserver⟩ := h
  rw [UInt16.toNat_inj.mp hclient, UInt16.toNat_inj.mp hserver]

/-- The smaller end is in front. -/
theorem StreamKey.ranks_between (a b : ConnectionEnd) :
    (between a b).ranks = (s(a.rank, b.rank).inf, s(a.rank, b.rank).sup) := by
  have hlt : a.rank < b.rank ↔ a.address.display < b.address.display ∨
      a.address.display = b.address.display ∧ a.port < b.port := by
    rw [Prod.Lex.lt_iff, UInt16.lt_iff_toNat_lt]
    rfl
  rw [between, StreamKey.new, Sym2.inf_mk, Sym2.sup_mk]
  by_cases h : a.rank < b.rank
  · rw [if_pos (hlt.mp h), inf_of_le_left h.le, sup_of_le_right h.le]
    rfl
  · have hle := le_of_not_gt h
    rw [if_neg (hlt.not.mp h), inf_of_le_right hle, sup_of_le_left hle]
    rfl

/-- Two pairs of endpoints have one key exactly if they are the same two
endpoints, in either order. -/
theorem StreamKey.between_eq_iff (a b c d : ConnectionEnd) :
    between a b = between c d ↔ s(a, b) = s(c, d) := by
  calc between a b = between c d
      ↔ (between a b).ranks = (between c d).ranks := ranks_injective.eq_iff.symm
    _ ↔ s(a.rank, b.rank) = s(c.rank, d.rank) := by
        rw [ranks_between, ranks_between, Prod.mk.injEq]
        exact Sym2.inf_eq_inf_and_sup_eq_sup
    _ ↔ s(a, b).map ConnectionEnd.rank = s(c, d).map ConnectionEnd.rank := Iff.rfl
    _ ↔ s(a, b) = s(c, d) := (Sym2.map.injective ConnectionEnd.rank_injective).eq_iff

end NetZer
