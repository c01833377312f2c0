import NetZer.Core.Buffer
import NetZer.Lib.Text

/-! # DNS queries

`DnsQuery::parse`: the name of the first question, read label by label. Each
pass of the loop either leaves it, at the terminating zero, at the end of the
buffer or with an error, or moves past one label.
-/

namespace NetZer

open Rust Bytes

structure DnsQuery where
  domainName : String
deriving DecidableEq, Repr

namespace DnsQuery

/-- One pass of the QNAME loop; the state is the offset and the name so far. -/
def qnameStep (buffer : List UInt8) (s : Nat × String) :
    Run (Flow (Nat × String) (Result String)) := do
  let (offset, domain) := s
  if buffer.length ≤ offset then
    return .done (.ok domain)
  let length := (← index buffer offset).toNat
  if length = 0 then
    return .done (.ok domain)
  -- a compression pointer has both top bits set
  if length &&& 0xC0 = 0xC0 then
    return .done (.error .invalidFormat)
  let offset := offset + 1
  -- the label and one more byte have to be there
  if offset + length ≥ buffer.length then
    return .done (.error .bufferTooShort)
  let domain := if domain.isEmpty then domain else domain ++ "."
  let bytes ← slice buffer offset (offset + length)
  match Text.fromUtf8 bytes.1 with
  | none => return .done (.error .invalidFormat)
  | some label => return .next (offset + length, domain ++ label)

/-- The QNAME loop, from the end of the DNS header. -/
def qname (buffer : List UInt8) : Run (Result String) :=
  loop (qnameStep buffer) buffer.length (12, "")

def parse (buffer : List UInt8) : Run (Result DnsQuery) := do
  if buffer.length < 12 then
    return .error .bufferTooShort
  -- QR bit: a response
  if (← index buffer 2) &&& 0x80 ≠ 0 then
    return .error .invalidFormat
  let s ← slice buffer 4 6
  -- QDCOUNT
  let qdcountBytes ← copyFromSlice 2 s.1
  let qdcount := be16 qdcountBytes[0] qdcountBytes[1]
  if qdcount = 0 then
    return .error .invalidFormat
  match ← qname buffer with
  | .error e => return .error e
  | .ok domain =>
      -- the root name alone is refused
      if domain.isEmpty then
        return .error .invalidFormat
      return .ok { domainName := domain }

/-! ## No panic -/

/-- A pass never panics, and one that goes round again has moved on. -/
theorem qnameStep_returns (buffer : List UInt8) (s : Nat × String) :
    (∃ r, qnameStep buffer s = .ok (.done r)) ∨
      ∃ s', qnameStep buffer s = .ok (.next s') ∧ s.1 < s'.1 ∧ s'.1 < buffer.length := by
  rcases s with ⟨offset, domain⟩
  by_cases hend : buffer.length ≤ offset
  · left
    exact ⟨.ok domain, by simp [qnameStep, hend, pure, Except.pure]⟩
  have hlt : offset < buffer.length := by omega
  by_cases hzero : buffer[offset].toNat = 0
  · left
    exact ⟨.ok domain, by simp [qnameStep, hend, index_lt hlt, hzero, bind, Except.bind, pure,
      Except.pure]⟩
  -- from here on the byte is the length of a label
  by_cases hptr : buffer[offset].toNat &&& 0xC0 = 0xC0
  · left
    exact ⟨.error .invalidFormat, by simp [qnameStep, hend, index_lt hlt, hzero, hptr, bind,
      Except.bind, pure, Except.pure]⟩
  by_cases hshort : offset + 1 + buffer[offset].toNat ≥ buffer.length
  · left
    exact ⟨.error .bufferTooShort, by simp [qnameStep, hend, index_lt hlt, hzero, hptr, hshort,
      bind, Except.bind, pure, Except.pure]⟩
  have hle : offset + 1 + buffer[offset].toNat ≤ buffer.length := by omega
  have hslice := slice_ok (φ := Fn) buffer (Nat.le_add_right (offset + 1) _) hle
  cases hlabel : Text.fromUtf8 ((buffer.drop (offset + 1)).take
      (offset + 1 + buffer[offset].toNat - (offset + 1))) with
  | none =>
      left
      refine ⟨.error .invalidFormat, ?_⟩
      simp only [qnameStep, hend, index_lt hlt, hzero, hptr, hshort, hslice, hlabel, bind,
        Except.bind, pure, Except.pure, if_false]
  | some label =>
      right
      refine ⟨(offset + 1 + buffer[offset].toNat,
        (if domain.isEmpty then domain else domain ++ ".") ++ label), ?_,
        by simp only; omega, by simp only; omega⟩
      simp only [qnameStep, hend, index_lt hlt, hzero, hptr, hshort, hslice, hlabel, bind,
        Except.bind, pure, Except.pure, if_false]

/-- The loop ends: the offset grows with every label. -/
theorem qname_returns (buffer : List UInt8) (h : 12 ≤ buffer.length) :
    ∃ r, qname buffer = .ok r := by
  have htotal := loop_total (qnameStep buffer) (fun _ => True)
    (fun s => buffer.length - s.1) (fun _ => True)
    (by
      intro s _
      rcases qnameStep_returns buffer s with ⟨r, hr⟩ | ⟨s', hs', hlt, hend⟩
      · exact Or.inl ⟨r, hr, trivial⟩
      · exact Or.inr ⟨s', hs', trivial, by omega⟩)
  rcases htotal buffer.length (12, "") trivial (by simp; omega) with ⟨r, hr, -⟩
  exact ⟨r, hr⟩

/-- `DnsQuery::parse` returns on every buffer. -/
theorem parse_returns (buffer : List UInt8) : ∃ r, parse buffer = .ok r := by
  by_cases hlen : buffer.length < 12
  · exact ⟨.error .bufferTooShort, by simp [parse, hlen, pure, Except.pure]⟩
  have h2 : 2 < buffer.length := by omega
  have hslice := slice_ok (φ := Fn) buffer (a := 4) (b := 6) (by omega) (by omega)
  have hcopy := copyFromSlice_ok (φ := Fn) (n := 2)
    (slice_length buffer (a := 4) (b := 6) (by omega))
  rcases qname_returns buffer (by omega) with ⟨r, hr⟩
  simp only [parse, hlen, index_lt h2, hslice, hcopy, hr, bind, Except.bind, if_false]
  split_ifs
  · exact ⟨_, rfl⟩
  · exact ⟨_, rfl⟩
  · cases r with
    | error e => exact ⟨_, rfl⟩
    | ok domain =>
        simp only
        split_ifs
        · exact ⟨_, rfl⟩
        · exact ⟨_, rfl⟩

end DnsQuery

end NetZer
