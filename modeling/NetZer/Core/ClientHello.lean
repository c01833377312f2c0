import NetZer.Core.Tls
import NetZer.Lib.Codec

/-! # What `TlsClientHello::parse` accepts

The fields of a hello stand behind each other, most of them behind their own
length. The parser follows the lengths; what it answers is determined by the
first field that does not fit the buffer or, if all of them fit, by the entries
of the extension block. From this come the one buffer on which it panics, the
grammar of what it accepts, and how far it reads.
-/

namespace NetZer

open Rust Bytes

namespace TlsClientHello

/-! ## Numbers in the buffer -/

section

variable {buffer : List UInt8} {i : Nat}

theorem value_pair (hi lo : UInt8) :
    Order.big.value [hi, lo] = hi.toNat <<< 8 ||| lo.toNat := by
  have hlo : lo.toNat < 2 ^ 8 := lo.toNat_lt
  rw [Nat.shiftLeft_eq, Nat.mul_comm, ← Nat.two_pow_add_eq_or_of_lt hlo]
  simp [Order.big, leNat]
  omega

theorem be16At_eq (h : i + 2 ≤ buffer.length) : be16At buffer i = .ok (numberAt 2 buffer i) := by
  have h0 : i < buffer.length := by omega
  have h1 : i + 1 < buffer.length := by omega
  have hbytes : (buffer.drop i).take 2 = [buffer[i], buffer[i + 1]] := by
    rw [List.drop_eq_getElem_cons h0, List.drop_eq_getElem_cons h1]
    rfl
  rw [numberAt, hbytes, value_pair]
  simp only [be16At, index_lt h0, index_lt h1, ok_bind]
  rfl

theorem index_eq (h : i < buffer.length) :
    (index buffer i : Run UInt8) = .ok (UInt8.ofNat (numberAt 1 buffer i)) := by
  have hbytes : (buffer.drop i).take 1 = [buffer[i]] := by
    rw [List.drop_eq_getElem_cons h]
    rfl
  rw [index_lt h, numberAt, hbytes]
  simp [Order.big, leNat]

theorem toNat_ofNat_numberAt : (UInt8.ofNat (numberAt 1 buffer i)).toNat = numberAt 1 buffer i := by
  have h := Order.big_value_lt ((buffer.drop i).take 1)
  have hlen : ((buffer.drop i).take 1).length ≤ 1 := List.length_take_le _ _
  have hpow : 256 ^ ((buffer.drop i).take 1).length ≤ 256 ^ 1 :=
    Nat.pow_le_pow_right (by decide) hlen
  rw [UInt8.toNat_ofNat', numberAt]
  exact Nat.mod_eq_of_lt (Nat.lt_of_lt_of_le h hpow)

end

/-! ## The loops -/

/-- An entry of the server name list: its type and its name. -/
abbrev NameEntry := Vector UInt8 1 × Prefixed 2

/-- An extension: its type and its data. -/
abbrev Extension := Vector UInt8 2 × Prefixed 2

/-- The type of a `server_name` extension. -/
def serverNameType : Vector UInt8 2 :=
  #v[0, 0]

def nameEntry : Codec NameEntry :=
  .entry 1 2 Nat.one_pos Nat.two_pos

def extension : Codec Extension :=
  .entry 2 2 Nat.two_pos Nat.two_pos

/-- A host name has to be UTF-8. -/
def hostName (bytes : List UInt8) : Result String :=
  match Text.fromUtf8 bytes with
  | some name => .ok name
  | none => .error .invalidFormat

/-- The type of an entry: 0 is a host name. -/
def nameType (e : NameEntry) : UInt8 :=
  e.1.get 0

/-- What an entry of the name list decides. -/
def nameVerdict (e : NameEntry) : Option (Option (Result String)) :=
  if nameType e = 0 then some (some (hostName e.2.data)) else none

/-- What is behind the last entry is too short for one, or claims too much. -/
def namesEnd (rest : List UInt8) : Option (Result String) :=
  if rest.length < 3 then none else some (.error .bufferTooShort)

/-- What the loop over the names finds in their list. -/
def namesAnswer (list : List UInt8) : Option (Result String) :=
  ((nameEntry.readAll list).1.findSome? nameVerdict).getD (namesEnd (nameEntry.readAll list).2)

/-- What an extension decides. -/
def extensionVerdict (e : Extension) : Option (Result String) :=
  if Order.big.value e.1.toList ≠ 0 then none
  else if e.2.data.length < 2 then some (.error .invalidFormat)
  else namesAnswer (e.2.data.drop 2)

def extensionsRest (rest : List UInt8) : Result String :=
  if rest.length < 4 then .error .invalidFormat else .error .bufferTooShort

/-- What the loop over the extensions finds in their block. -/
def blockAnswer (block : List UInt8) : Result String :=
  ((extension.readAll block).1.findSome? extensionVerdict).getD
    (extensionsRest (extension.readAll block).2)

section

variable {buffer : List UInt8} {stop offset : Nat}

theorem length_window (hstop : stop ≤ buffer.length) :
    ((buffer.take stop).drop offset).length = stop - offset := by
  rw [List.length_drop, List.length_take_of_le hstop]

/-- A slice that ends inside a window. -/
theorem take_window {k n : Nat} (h : k + n ≤ stop) :
    ((buffer.take stop).drop k).take n = (buffer.drop k).take n := by
  have hmin : min n (stop - k) = n := by omega
  rw [List.drop_take, List.take_take, hmin]

/-- Where no entry is left, the pass leaves the loop. -/
theorem nameStep_of_none (hstop : stop ≤ buffer.length)
    (h : nameEntry.read ((buffer.take stop).drop offset) = none) :
    nameStep buffer stop offset =
      .ok (.done (namesEnd ((buffer.take stop).drop offset))) := by
  rw [namesEnd, length_window hstop]
  -- too little is left for a header, or the length points behind the list
  by_cases hend : stop < offset + 3
  · have hshort : stop - offset < 3 := by omega
    simp only [nameStep, if_pos hend, if_pos hshort]
    rfl
  · have hnum : numberAt 2 ((buffer.take stop).drop offset) 1 = numberAt 2 buffer (offset + 1) :=
      numberAt_window (by omega)
    have hover : offset + 3 + numberAt 2 buffer (offset + 1) > stop := by
      have hlt := Codec.entry_read_eq_none_iff.mp h
      rw [length_window hstop, hnum] at hlt
      omega
    have htype : offset < buffer.length := by omega
    have hlen : offset + 1 + 2 ≤ buffer.length := by omega
    have hlong : ¬ stop - offset < 3 := by omega
    simp only [nameStep, if_neg hend, index_lt htype, be16At_eq hlen, ok_bind, if_pos hover,
      if_neg hlong]
    rfl

/-- An entry is answered or stepped over. -/
theorem nameStep_of_some (hstop : stop ≤ buffer.length) {e : NameEntry} {rest : List UInt8}
    (h : nameEntry.read ((buffer.take stop).drop offset) = some (e, rest)) :
    nameStep buffer stop offset =
      .ok ((nameVerdict e).elim (.next (offset + (3 + e.2.data.length))) .done) := by
  obtain ⟨htag, hlen, hdata, hfits⟩ := Codec.entry_of_read h
  rw [length_window hstop] at hfits
  have hnum : numberAt 2 ((buffer.take stop).drop offset) 1 = numberAt 2 buffer (offset + 1) :=
    numberAt_window (by omega)
  rw [hnum] at hlen hdata hfits
  have hend : ¬ stop < offset + 3 := by omega
  have hover : ¬ offset + 3 + numberAt 2 buffer (offset + 1) > stop := by omega
  have htype : offset < buffer.length := by omega
  have hfield : offset + 1 + 2 ≤ buffer.length := by omega
  have hfirst : nameType e = buffer[offset] := by
    show e.1[0] = buffer[offset]
    have hget : e.1.toList[0]? = some buffer[offset] := by
      rw [htag, List.getElem?_take_of_lt Nat.one_pos, List.getElem?_drop,
        List.getElem?_take_of_lt (by omega), Nat.add_zero, List.getElem?_eq_getElem htype]
    simpa using hget
  simp only [nameStep, if_neg hend, index_lt htype, be16At_eq hfield, ok_bind, if_neg hover,
    nameVerdict, hfirst]
  -- a host name ends the loop, whatever its bytes are
  by_cases hzero : buffer[offset] = 0
  · have hslice := slice_ok (φ := Fn) buffer (a := offset + 3)
      (b := offset + 3 + numberAt 2 buffer (offset + 1)) (Nat.le_add_right _ _) (by omega)
    have hhost : (buffer.drop (offset + 3)).take (offset + 3 + numberAt 2 buffer (offset + 1) -
        (offset + 3)) = e.2.data := by
      rw [hdata, List.drop_drop, Nat.add_sub_cancel_left]
      exact (take_window (by omega)).symm
    simp only [if_pos hzero, hslice, hhost, ok_bind, hostName]
    cases Text.fromUtf8 e.2.data <;> rfl
  · simp only [if_neg hzero, hlen, Nat.add_assoc]
    rfl

theorem loop_names (hstop : stop ≤ buffer.length) (ho : offset ≤ stop) :
    loop (nameStep buffer stop) (buffer.length + 1) offset =
      .ok (namesAnswer ((buffer.take stop).drop offset)) := by
  have hwindow : (buffer.take stop).length = stop := List.length_take_of_le hstop
  unfold namesAnswer
  apply nameEntry.loop_of_verdict
  · intro o _ hread
    exact nameStep_of_none hstop hread
  · intro o e rest _ hread
    rw [nameStep_of_some hstop hread, nameEntry, Codec.length_write_entry]
  · omega
  · omega

theorem extensionStep_of_none (hstop : stop ≤ buffer.length)
    (h : extension.read ((buffer.take stop).drop offset) = none) :
    extensionStep buffer stop offset =
      .ok (.done (extensionsRest ((buffer.take stop).drop offset))) := by
  rw [extensionsRest, length_window hstop]
  by_cases hend : stop < offset + 4
  · have hshort : stop - offset < 4 := by omega
    simp only [extensionStep, if_pos hend, if_pos hshort]
    rfl
  · have hnum : numberAt 2 ((buffer.take stop).drop offset) 2 = numberAt 2 buffer (offset + 2) :=
      numberAt_window (by omega)
    have hover : offset + 4 + numberAt 2 buffer (offset + 2) > stop := by
      have hlt := Codec.entry_read_eq_none_iff.mp h
      rw [length_window hstop, hnum] at hlt
      omega
    have htype : offset + 2 ≤ buffer.length := by omega
    have hlen : offset + 2 + 2 ≤ buffer.length := by omega
    have hlong : ¬ stop - offset < 4 := by omega
    simp only [extensionStep, if_neg hend, be16At_eq htype, be16At_eq hlen, ok_bind, if_pos hover,
      if_neg hlong]
    rfl

theorem extensionStep_of_some (hstop : stop ≤ buffer.length) {e : Extension} {rest : List UInt8}
    (h : extension.read ((buffer.take stop).drop offset) = some (e, rest)) :
    extensionStep buffer stop offset =
      .ok ((extensionVerdict e).elim (.next (offset + (4 + e.2.data.length))) .done) := by
  obtain ⟨htag, hlen, hdata, hfits⟩ := Codec.entry_of_read h
  rw [length_window hstop] at hfits
  have hnum : numberAt 2 ((buffer.take stop).drop offset) 2 = numberAt 2 buffer (offset + 2) :=
    numberAt_window (by omega)
  rw [hnum] at hlen hdata hfits
  have hend : ¬ stop < offset + 4 := by omega
  have hover : ¬ offset + 4 + numberAt 2 buffer (offset + 2) > stop := by omega
  have htype : offset + 2 ≤ buffer.length := by omega
  have hfield : offset + 2 + 2 ≤ buffer.length := by omega
  have hzero : Order.big.value e.1.toList = numberAt 2 buffer offset := by
    have hwindow : numberAt 2 ((buffer.take stop).drop offset) 0 = numberAt 2 buffer (offset + 0) :=
      numberAt_window (by omega)
    rw [htag]
    exact hwindow
  simp only [extensionStep, if_neg hend, be16At_eq htype, be16At_eq hfield, ok_bind, if_neg hover,
    extensionVerdict, hzero, hlen]
  by_cases hname : numberAt 2 buffer offset = 0
  · by_cases hshort : numberAt 2 buffer (offset + 2) < 2
    · simp only [hname, hshort, if_true, ne_eq, not_true_eq_false, if_false]
      rfl
    · have hend' : offset + 4 + numberAt 2 buffer (offset + 2) ≤ buffer.length := by omega
      -- the names are read up to the end of the extension, not of the block
      have hnames : loop (nameStep buffer (offset + 4 + numberAt 2 buffer (offset + 2)))
          (buffer.length + 1) (offset + 4 + 2) = _ := loop_names hend' (by omega)
      have hlist : (buffer.take (offset + 4 + numberAt 2 buffer (offset + 2))).drop
          (offset + 4 + 2) = e.2.data.drop 2 := by
        have hslice : ((buffer.take stop).drop (offset + 4)).take (numberAt 2 buffer (offset + 2)) =
            (buffer.drop (offset + 4)).take (numberAt 2 buffer (offset + 2)) :=
          take_window (by omega)
        rw [hdata, List.drop_drop, hslice, ← List.drop_drop, List.drop_take,
          Nat.add_sub_cancel_left]
      rw [hlist] at hnames
      simp only [hname, hshort, hnames, ok_bind, if_true, ne_eq, not_true_eq_false, if_false]
      cases namesAnswer (e.2.data.drop 2) with
      | some r => rfl
      | none =>
          rw [Nat.add_assoc]
          rfl
  · simp only [hname, if_false, ne_eq, not_false_eq_true, if_true, Nat.add_assoc]
    rfl

theorem loop_extensions (hstop : stop ≤ buffer.length) (ho : offset ≤ stop) :
    loop (extensionStep buffer stop) (buffer.length + 1) offset =
      .ok (blockAnswer ((buffer.take stop).drop offset)) := by
  have hwindow : (buffer.take stop).length = stop := List.length_take_of_le hstop
  unfold blockAnswer
  apply extension.loop_of_verdict
  · intro o _ hread
    exact extensionStep_of_none hstop hread
  · intro o e rest _ hread
    rw [extensionStep_of_some hstop hread, extension, Codec.length_write_entry]
  · omega
  · omega

end

/-! ## The fields in front -/

section

variable (buffer : List UInt8)

/-- Where the fields of a hello begin that stand behind fields of any length. -/
def cipherSuitesAt : Nat :=
  44 + numberAt 1 buffer 43

def compressionAt : Nat :=
  cipherSuitesAt buffer + 2 + numberAt 2 buffer (cipherSuitesAt buffer)

def extensionsAt : Nat :=
  compressionAt buffer + 1 + numberAt 1 buffer (compressionAt buffer)

def extensionsEnd : Nat :=
  extensionsAt buffer + 2 + numberAt 2 buffer (extensionsAt buffer)

/-- The extension block. -/
def block : List UInt8 :=
  (buffer.take (extensionsEnd buffer)).drop (extensionsAt buffer + 2)

/-- The error for the first field that does not end below a limit. -/
def cutOff (limit : Nat) : Option ParseError :=
  if limit ≤ 43 then some .bufferTooShort
  else if limit < cipherSuitesAt buffer + 2 then some .bufferTooShort
  else if limit < compressionAt buffer + 1 then some .bufferTooShort
  -- a hello may end with its compression methods
  else if limit < extensionsAt buffer + 2 then some .invalidFormat
  else if limit < extensionsEnd buffer then some .bufferTooShort
  else none

/-- The answer to what stands behind the record header, up to a limit. -/
def helloAnswer (limit : Nat) : Result String :=
  if numberAt 1 buffer 5 ≠ 1 then .error .invalidFormat
  else (cutOff buffer limit).elim (blockAnswer (block buffer)) .error

end

section

variable {buffer : List UInt8}

/-- Each field begins behind the ones before it. -/
theorem offsets_le :
    44 ≤ cipherSuitesAt buffer ∧ cipherSuitesAt buffer + 2 ≤ compressionAt buffer ∧
      compressionAt buffer + 1 ≤ extensionsAt buffer ∧
      extensionsAt buffer + 2 ≤ extensionsEnd buffer :=
  ⟨Nat.le_add_right _ _, Nat.le_add_right _ _, Nat.le_add_right _ _, Nat.le_add_right _ _⟩

/-- All fields fit exactly if the last one does. -/
theorem cutOff_eq_none_iff {limit : Nat} :
    cutOff buffer limit = none ↔ extensionsEnd buffer ≤ limit := by
  obtain ⟨hciphers, hcompression, hextensions, hend⟩ := @offsets_le buffer
  constructor
  · intro h
    unfold cutOff at h
    split_ifs at h
    omega
  · intro h
    rw [cutOff, if_neg (by omega), if_neg (by omega), if_neg (by omega), if_neg (by omega),
      if_neg (by omega)]

theorem helloAnswer_eq_ok_iff {limit : Nat} {host : String} :
    helloAnswer buffer limit = .ok host ↔
      numberAt 1 buffer 5 = 1 ∧ extensionsEnd buffer ≤ limit ∧
        blockAnswer (block buffer) = .ok host := by
  rw [← cutOff_eq_none_iff]
  by_cases hone : numberAt 1 buffer 5 = 1
  · cases hcut : cutOff buffer limit with
    | none => simp [helloAnswer, hone, hcut]
    | some e => simp [helloAnswer, hone, hcut]
  · simp [helloAnswer, hone]

/-- The name says what is answered. -/
theorem answer_inj {r r' : Result String} :
    (.ok (r.map TlsClientHello.mk) : Run (Result TlsClientHello)) =
      .ok (r'.map TlsClientHello.mk) ↔ r = r' := by
  rw [Except.ok.injEq]
  cases r <;> cases r' <;> simp [Except.map]

/-- Behind the record header the answer is that of the hello. -/
theorem parse_of_record (hlen : 6 ≤ buffer.length) (hrecord : numberAt 1 buffer 0 = 22)
    (hwhole : 5 + numberAt 2 buffer 3 ≤ buffer.length) :
    parse buffer = .ok ((helloAnswer buffer buffer.length).map TlsClientHello.mk) := by
  have h5 : ¬ buffer.length < 5 := by omega
  have h0 : 0 < buffer.length := by omega
  have h3 : 3 + 2 ≤ buffer.length := by omega
  have hhello : 5 < buffer.length := by omega
  have hwhole' : ¬ buffer.length < 5 + numberAt 2 buffer 3 := by omega
  have htype : ¬ UInt8.ofNat (numberAt 1 buffer 0) ≠ 22 := by
    rw [hrecord]
    decide
  have hone : UInt8.ofNat (numberAt 1 buffer 5) ≠ 1 ↔ numberAt 1 buffer 5 ≠ 1 := by
    rw [ne_eq, ← UInt8.toNat_inj, toNat_ofNat_numberAt]
    rfl
  have hciphers : 44 + numberAt 1 buffer 43 = cipherSuitesAt buffer := rfl
  have hcompression : cipherSuitesAt buffer + 2 + numberAt 2 buffer (cipherSuitesAt buffer) =
      compressionAt buffer := rfl
  have hextensions : compressionAt buffer + 1 + numberAt 1 buffer (compressionAt buffer) =
      extensionsAt buffer := rfl
  have hend : extensionsAt buffer + 2 + numberAt 2 buffer (extensionsAt buffer) =
      extensionsEnd buffer := rfl
  simp only [parse, calling_eq_ok, if_neg h5, index_eq h0, ok_bind, if_neg htype, be16At_eq h3,
    if_neg hwhole', index_eq hhello, hone, helloAnswer, cutOff, Nat.reduceAdd]
  -- the checks in the order of the code; the random and the versions are not looked at
  by_cases h1 : numberAt 1 buffer 5 ≠ 1
  · rw [if_pos h1, if_pos h1]
    rfl
  rw [if_neg h1, if_neg h1]
  by_cases h43 : buffer.length ≤ 43
  · rw [if_pos h43, if_pos h43]
    rfl
  have hsession : 43 < buffer.length := by omega
  simp only [if_neg h43, index_eq hsession, ok_bind, toNat_ofNat_numberAt, hciphers]
  by_cases hc : buffer.length < cipherSuitesAt buffer + 2
  · rw [if_pos hc, if_pos hc]
    rfl
  have hc' : cipherSuitesAt buffer + 2 ≤ buffer.length := by omega
  simp only [if_neg hc, be16At_eq hc', ok_bind, hcompression]
  by_cases hm : buffer.length < compressionAt buffer + 1
  · rw [if_pos hm, if_pos hm]
    rfl
  have hm' : compressionAt buffer < buffer.length := by omega
  simp only [if_neg hm, index_eq hm', ok_bind, toNat_ofNat_numberAt, hextensions]
  by_cases he : buffer.length < extensionsAt buffer + 2
  · rw [if_pos he, if_pos he]
    rfl
  have he' : extensionsAt buffer + 2 ≤ buffer.length := by omega
  simp only [if_neg he, be16At_eq he', ok_bind, hend]
  by_cases hb : buffer.length < extensionsEnd buffer
  · rw [if_pos hb, if_pos hb]
    rfl
  have hb' : extensionsEnd buffer ≤ buffer.length := by omega
  rw [if_neg hb, if_neg hb, loop_extensions hb' (Nat.le_add_right _ _), ok_bind, ← block,
    Option.elim_none]
  cases blockAnswer (block buffer) <;> rfl

/-- The record's type and length are checked before it is looked into. -/
theorem parse_of_no_record
    (h : buffer.length < 5 ∨ numberAt 1 buffer 0 ≠ 22 ∨
      buffer.length < 5 + numberAt 2 buffer 3) :
    ∃ e, parse buffer = .ok (.error e) := by
  by_cases h5 : buffer.length < 5
  · exact ⟨.bufferTooShort, by simp only [parse, if_pos h5]; rfl⟩
  have h0 : 0 < buffer.length := by omega
  have h3 : 3 + 2 ≤ buffer.length := by omega
  have htype : UInt8.ofNat (numberAt 1 buffer 0) ≠ 22 ↔ numberAt 1 buffer 0 ≠ 22 := by
    rw [ne_eq, ← UInt8.toNat_inj, toNat_ofNat_numberAt]
    rfl
  by_cases h22 : numberAt 1 buffer 0 ≠ 22
  · refine ⟨.invalidFormat, ?_⟩
    simp only [parse, calling_eq_ok, if_neg h5, index_eq h0, ok_bind, htype, if_pos h22]
    rfl
  · have hwhole : buffer.length < 5 + numberAt 2 buffer 3 := by tauto
    refine ⟨.bufferTooShort, ?_⟩
    simp only [parse, calling_eq_ok, if_neg h5, index_eq h0, ok_bind, htype, if_neg h22,
      be16At_eq h3, if_pos hwhole]
    rfl

/-- A record that announces no bytes, with none behind it, passes the length
check, and the type of the handshake message is read all the same. -/
theorem parse_empty_record (major minor : UInt8) :
    parse [22, major, minor, 0, 0] = .error ⟨.index, [.tlsClientHelloParse]⟩ := rfl

theorem eq_empty_record (hlen : buffer.length = 5) (htype : numberAt 1 buffer 0 = 22)
    (hrecord : numberAt 2 buffer 3 = 0) : ∃ major minor, buffer = [22, major, minor, 0, 0] := by
  match buffer, hlen with
  | [a, major, minor, hi, lo], _ =>
      have ha : a.toNat = 22 := by simpa [numberAt, Order.big, leNat] using htype
      have hbytes : lo.toNat + 256 * hi.toNat = 0 := by
        simpa [numberAt, Order.big, leNat] using hrecord
      have ha' : a = 22 := UInt8.toNat_inj.mp ha
      have hhi : hi = 0 := UInt8.toNat_inj.mp (by rw [UInt8.toNat_zero]; omega)
      have hlo : lo = 0 := UInt8.toNat_inj.mp (by rw [UInt8.toNat_zero]; omega)
      exact ⟨major, minor, by rw [ha', hhi, hlo]⟩

end

end TlsClientHello

/-! ## Panics -/

/-- `TlsClientHello::parse` returns on every buffer but the header of an empty
record. -/
theorem clientHello_returns_iff (buffer : List UInt8) :
    (∃ r, TlsClientHello.parse buffer = .ok r) ↔
      ∀ major minor, buffer ≠ [22, major, minor, 0, 0] := by
  constructor
  · rintro ⟨r, hr⟩ major minor rfl
    rw [TlsClientHello.parse_empty_record] at hr
    cases hr
  · intro h
    by_cases hrecord : buffer.length < 5 ∨ numberAt 1 buffer 0 ≠ 22 ∨
        buffer.length < 5 + numberAt 2 buffer 3
    · obtain ⟨e, he⟩ := TlsClientHello.parse_of_no_record hrecord
      exact ⟨_, he⟩
    · push Not at hrecord
      obtain ⟨hlen, htype, hwhole⟩ := hrecord
      -- the one byte behind the header is read without a check
      have hlong : 6 ≤ buffer.length := by
        by_contra hshort
        obtain ⟨major, minor, heq⟩ := TlsClientHello.eq_empty_record (by omega) htype (by omega)
        exact h major minor heq
      exact ⟨_, TlsClientHello.parse_of_record hlong htype hwhole⟩

/-- Five bytes are enough. -/
theorem clientHello_panics_on_empty_record :
    ¬ ∀ buffer : List UInt8, ∃ r, TlsClientHello.parse buffer = .ok r := by
  intro hall
  obtain ⟨r, hr⟩ := hall [22, 3, 1, 0, 0]
  rw [TlsClientHello.parse_empty_record] at hr
  cases hr

end NetZer
