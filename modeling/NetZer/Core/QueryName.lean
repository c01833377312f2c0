import NetZer.Core.Dns
import NetZer.Lib.Codec

/-! # The names `DnsQuery::parse` accepts

A query is a header, the labels of a name, a zero byte and whatever follows. The
loop over the name accepts labels of up to 191 bytes: only a length byte with
both of its top bits set is refused. So it accepts every name of the standard,
whose labels have at most 63 bytes, and some others.
-/

namespace NetZer

open Rust Bytes Text

/-- A label: its length, then its bytes. -/
def labelBytes (label : String) : List UInt8 :=
  UInt8.ofNat (utf8 label).length :: utf8 label

/-- A text of at least a byte and at most `max`. -/
def IsLabel (max : Nat) (label : String) : Prop :=
  0 < (utf8 label).length ∧ (utf8 label).length ≤ max

/-- A DNS header that announces a query with a question. -/
structure QueryHeader where
  bytes : Vector UInt8 12
  query : bytes[2] &&& 0x80 = 0
  questions : be16 bytes[4] bytes[5] ≠ 0

/-- A query whose labels have at most `max` bytes. -/
structure Query (max : Nat) where
  header : QueryHeader
  labels : List String
  labels_ne : labels ≠ []
  isLabel : ∀ l ∈ labels, IsLabel max l
  trailing : List UInt8

namespace Query

variable {max : Nat} (q : Query max)

/-- The name and what follows it. -/
def question : List UInt8 :=
  q.labels.flatMap labelBytes ++ 0 :: q.trailing

def bytes : List UInt8 :=
  q.header.bytes.toList ++ q.question

def domainName : String :=
  ".".intercalate q.labels

end Query

namespace DnsQuery

/-! ## A pass of the loop -/

section

variable {buffer rest : List UInt8} {offset : Nat} {domain : String} {b : UInt8}

theorem ptr_iff (b : UInt8) : b.toNat &&& 0xC0 = 0xC0 ↔ 192 ≤ b.toNat := by
  have hall : ∀ n : Fin 256, n.val &&& 0xC0 = 0xC0 ↔ 192 ≤ n.val := by decide +kernel
  exact hall ⟨b.toNat, b.toNat_lt⟩

theorem drop_lt (h : buffer.drop offset = b :: rest) :
    ∃ hlt : offset < buffer.length, buffer[offset] = b ∧ buffer.drop (offset + 1) = rest := by
  have hlt : offset < buffer.length := by
    by_contra hge
    rw [List.drop_eq_nil_of_le (by omega)] at h
    cases h
  rw [List.drop_eq_getElem_cons hlt, List.cons.injEq] at h
  exact ⟨hlt, h⟩

/-- What a pass does with the byte it is at and the bytes behind it. -/
theorem qnameStep_eq (h : buffer.drop offset = b :: rest) :
    qnameStep buffer (offset, domain) = .ok (
      if b = 0 then .done (.ok domain)
      else if 192 ≤ b.toNat then .done (.error .invalidFormat)
      else if rest.length ≤ b.toNat then .done (.error .bufferTooShort)
      else
        match fromUtf8 (rest.take b.toNat) with
        | none => .done (.error .invalidFormat)
        | some label => .next (offset + 1 + b.toNat,
            (if domain.isEmpty then domain else domain ++ ".") ++ label)) := by
  obtain ⟨hlt, hb, hrest⟩ := drop_lt h
  have hend : ¬ buffer.length ≤ offset := by omega
  have hlen : rest.length = buffer.length - (offset + 1) := by rw [← hrest, List.length_drop]
  have hzero : b.toNat = 0 ↔ b = 0 := by
    rw [← UInt8.toNat_inj]
    rfl
  simp only [qnameStep, if_neg hend, index_lt hlt, hb, ok_bind, hzero, ptr_iff]
  by_cases h0 : b = 0
  · rw [if_pos h0, if_pos h0]
    rfl
  by_cases hptr : 192 ≤ b.toNat
  · rw [if_neg h0, if_neg h0, if_pos hptr, if_pos hptr]
    rfl
  by_cases hshort : rest.length ≤ b.toNat
  · have hge : offset + 1 + b.toNat ≥ buffer.length := by omega
    rw [if_neg h0, if_neg h0, if_neg hptr, if_neg hptr, if_pos hshort, if_pos hge]
    rfl
  · have hge : ¬ offset + 1 + b.toNat ≥ buffer.length := by omega
    have hslice := slice_ok (φ := Fn) buffer (a := offset + 1) (b := offset + 1 + b.toNat)
      (Nat.le_add_right _ _) (by omega)
    rw [if_neg h0, if_neg h0, if_neg hptr, if_neg hptr, if_neg hshort, if_neg hge, hslice,
      ok_bind]
    simp only [hrest, Nat.add_sub_cancel_left]
    cases fromUtf8 (rest.take b.toNat) <;> rfl

/-- The first byte of a label. -/
theorem lengthByte {max : Nat} (hmax : max < 256) {label : String} (h : IsLabel max label) :
    (UInt8.ofNat (utf8 label).length).toNat = (utf8 label).length ∧
      UInt8.ofNat (utf8 label).length ≠ 0 := by
  obtain ⟨hpos, hle⟩ := h
  have hlen : (UInt8.ofNat (utf8 label).length).toNat = (utf8 label).length := by
    rw [UInt8.toNat_ofNat']
    exact Nat.mod_eq_of_lt (by omega)
  refine ⟨hlen, ?_⟩
  rw [ne_eq, ← UInt8.toNat_inj, hlen, UInt8.toNat_zero]
  omega

/-- The zero byte ends the name. -/
theorem qnameStep_of_zero (h : buffer.drop offset = 0 :: rest) :
    qnameStep buffer (offset, domain) = .ok (.done (.ok domain)) := by
  rw [qnameStep_eq h, if_pos rfl]

/-- The loop goes on behind a label that something follows. -/
theorem qnameStep_of_label (domain : String) {label : String} (hlabel : IsLabel 191 label)
    (hrest : rest ≠ []) (h : buffer.drop offset = labelBytes label ++ rest) :
    qnameStep buffer (offset, domain) = .ok (.next (offset + (labelBytes label).length,
      (if domain.isEmpty then domain else domain ++ ".") ++ label)) := by
  obtain ⟨hlen, hzero⟩ := lengthByte (by decide) hlabel
  obtain ⟨hpos, hle⟩ := hlabel
  have hnext : 0 < rest.length := List.length_pos_of_ne_nil hrest
  have hshort : ¬ (utf8 label ++ rest).length ≤ (utf8 label).length := by
    rw [List.length_append]
    omega
  have hcons : buffer.drop offset = UInt8.ofNat (utf8 label).length :: (utf8 label ++ rest) := h
  rw [qnameStep_eq hcons, if_neg hzero, hlen, if_neg (by omega), if_neg hshort, List.take_left,
    fromUtf8_utf8]
  simp only [labelBytes, List.length_cons, Nat.add_assoc, Nat.add_comm 1]

/-- At any other bytes the pass fails. -/
theorem qnameStep_cases (domain : String) (hlt : offset < buffer.length) :
    (∃ rest, buffer.drop offset = 0 :: rest) ∨
      (∃ (label : String) (rest : List UInt8), IsLabel 191 label ∧ rest ≠ [] ∧
        buffer.drop offset = labelBytes label ++ rest) ∨
      ∃ e, qnameStep buffer (offset, domain) = .ok (.done (.error e)) := by
  obtain ⟨b, rest, h⟩ : ∃ b rest, buffer.drop offset = b :: rest :=
    ⟨_, _, List.drop_eq_getElem_cons hlt⟩
  by_cases h0 : b = 0
  · exact Or.inl ⟨rest, h0 ▸ h⟩
  right
  by_cases hptr : 192 ≤ b.toNat
  · exact Or.inr ⟨_, by rw [qnameStep_eq h, if_neg h0, if_pos hptr]⟩
  by_cases hshort : rest.length ≤ b.toNat
  · exact Or.inr ⟨_, by rw [qnameStep_eq h, if_neg h0, if_neg hptr, if_pos hshort]⟩
  cases hlabel : fromUtf8 (rest.take b.toNat) with
  | none =>
      refine Or.inr ⟨.invalidFormat, ?_⟩
      rw [qnameStep_eq h, if_neg h0, if_neg hptr, if_neg hshort, hlabel]
  | some label =>
      have htext : rest.take b.toNat = utf8 label := fromUtf8_eq_some_iff.mp hlabel
      have hlen : (utf8 label).length = b.toNat := by
        rw [← htext, List.length_take_of_le (by omega)]
      -- the byte is not zero, so the label has a character
      have hpos : 0 < b.toNat := by
        rw [Nat.pos_iff_ne_zero, ne_eq, ← UInt8.toNat_zero, UInt8.toNat_inj]
        exact h0
      refine Or.inl ⟨label, rest.drop b.toNat, ⟨by omega, by omega⟩, ?_, ?_⟩
      · rw [ne_eq, List.drop_eq_nil_iff]
        omega
      · rw [h, labelBytes, hlen, UInt8.ofNat_toNat, ← htext, List.cons_append,
          List.take_append_drop]

/-! ## The loop -/

/-- The name after some more labels. -/
def extend (domain : String) (labels : List String) : String :=
  labels.foldl (fun d l => (if d.isEmpty then d else d ++ ".") ++ l) domain

theorem loop_qname_of_labels {labels : List String} (hlabels : ∀ l ∈ labels, IsLabel 191 l)
    {trailing : List UInt8} {fuel : Nat} (hfuel : labels.length < fuel)
    (h : buffer.drop offset = labels.flatMap labelBytes ++ 0 :: trailing) :
    loop (qnameStep buffer) fuel (offset, domain) = .ok (.ok (extend domain labels)) := by
  induction labels generalizing offset domain fuel with
  | nil =>
      cases fuel with
      | zero => cases hfuel
      | succ fuel =>
          rw [loop, qnameStep_of_zero h]
          rfl
  | cons label labels ih =>
      cases fuel with
      | zero => cases hfuel
      | succ fuel =>
          obtain ⟨hlabel, hrest⟩ := List.forall_mem_cons.mp hlabels
          rw [List.flatMap_cons, List.append_assoc] at h
          have hstep := qnameStep_of_label domain hlabel
            (List.append_ne_nil_of_right_ne_nil _ (List.cons_ne_nil _ _)) h
          -- the next pass begins where the label ends
          have hnext : buffer.drop (offset + (labelBytes label).length) =
              labels.flatMap labelBytes ++ 0 :: trailing := by
            rw [← List.drop_drop, h, List.drop_left]
          rw [loop, hstep]
          exact ih hrest (Nat.lt_of_succ_lt_succ hfuel) hnext

/-- A loop that finds a name has gone over labels up to a zero byte. -/
theorem labels_of_loop_qname {fuel : Nat} {d : String} (hlt : offset < buffer.length)
    (h : loop (qnameStep buffer) fuel (offset, domain) = .ok (.ok d)) :
    ∃ (labels : List String) (trailing : List UInt8), (∀ l ∈ labels, IsLabel 191 l) ∧
      buffer.drop offset = labels.flatMap labelBytes ++ 0 :: trailing := by
  -- each pass either ends at the zero byte, eats a label or fails
  induction fuel generalizing offset domain with
  | zero => cases h
  | succ fuel ih =>
      rw [loop] at h
      obtain ⟨trailing, hzero⟩ | ⟨label, rest, hlabel, hrest, hdrop⟩ | ⟨e, he⟩ :=
        qnameStep_cases domain hlt
      · exact ⟨[], trailing, by simp, hzero⟩
      · rw [qnameStep_of_label domain hlabel hrest hdrop] at h
        have hnext : buffer.drop (offset + (labelBytes label).length) = rest := by
          rw [← List.drop_drop, hdrop, List.drop_left]
        have hlt' : offset + (labelBytes label).length < buffer.length := by
          have hpos := List.length_pos_of_ne_nil hrest
          rw [← hnext, List.length_drop] at hpos
          omega
        obtain ⟨labels, trailing, hlabels, hlist⟩ := ih hlt' h
        refine ⟨label :: labels, trailing, List.forall_mem_cons.mpr ⟨hlabel, hlabels⟩, ?_⟩
        rw [List.flatMap_cons, List.append_assoc, ← hlist, hnext, hdrop]
      · rw [he] at h
        cases h

/-- Behind a label each further one follows a dot. -/
theorem extend_eq {labels : List String} (hdomain : domain ≠ "") :
    extend domain labels = ".".intercalate (domain :: labels) := by
  induction labels generalizing domain with
  | nil => rw [String.intercalate_singleton, extend, List.foldl_nil]
  | cons l ls ih =>
      have hempty : ¬ domain.isEmpty = true := by simpa using hdomain
      have hnext : domain ++ "." ++ l ≠ "" := by simp [hdomain]
      have hfirst : extend domain (l :: ls) = extend (domain ++ "." ++ l) ls := by
        rw [extend, List.foldl_cons, if_neg hempty, extend]
      rw [hfirst, ih hnext, String.intercalate_cons_append, String.intercalate_cons_cons]

theorem ne_empty_of_isLabel {max : Nat} {label : String} (h : IsLabel max label) : label ≠ "" := by
  rintro rfl
  exact absurd h.1 (Nat.lt_irrefl 0)

/-- A name that begins with a label. -/
theorem extend_labels {labels : List String} (hne : labels ≠ [])
    (hlabels : ∀ l ∈ labels, IsLabel 191 l) :
    extend "" labels = ".".intercalate labels ∧ ".".intercalate labels ≠ "" := by
  obtain ⟨l, ls, rfl⟩ := List.exists_cons_of_ne_nil hne
  have hl : l ≠ "" := ne_empty_of_isLabel (hlabels l List.mem_cons_self)
  have hfirst : extend "" (l :: ls) = extend l ls := by simp [extend]
  refine ⟨by rw [hfirst, extend_eq hl], ?_⟩
  cases ls with
  | nil => rwa [String.intercalate_singleton]
  | cons l' ls =>
      rw [String.intercalate_cons_cons]
      simp [hl]

end

/-! ## Queries -/

section

variable {buffer : List UInt8}

/-- The checks on the header, then the name. -/
theorem parse_eq (hlen : 12 ≤ buffer.length) :
    parse buffer =
      if buffer[2] &&& 0x80 ≠ 0 ∨ be16 buffer[4] buffer[5] = 0 then .ok (.error .invalidFormat)
      else (qname buffer).map fun r =>
        r.bind fun domain =>
          if domain.isEmpty then .error .invalidFormat else .ok { domainName := domain } := by
  have hlen' : ¬ buffer.length < 12 := by omega
  have h2 : 2 < buffer.length := by omega
  have hpair : (buffer.drop 4).take 2 = [buffer[4], buffer[5]] := by
    rw [List.drop_eq_getElem_cons (by omega), List.drop_eq_getElem_cons (by omega)]
    rfl
  have hslice := slice_ok (φ := Fn) buffer (a := 4) (b := 6) (by omega) (by omega)
  have hcopy : (copyFromSlice 2 ((buffer.drop 4).take (6 - 4)) : Run (Vector UInt8 2)) =
      .ok #v[buffer[4], buffer[5]] := by
    have hwidth : 6 - 4 = 2 := rfl
    rw [hwidth, hpair]
    rfl
  simp only [parse, if_neg hlen', index_lt h2, ok_bind, hslice, hcopy]
  -- the answer bit comes before the count
  by_cases hquery : buffer[2] &&& 0x80 ≠ 0
  · rw [if_pos hquery, if_pos (Or.inl hquery)]
    rfl
  by_cases hcount : be16 buffer[4] buffer[5] = 0
  · rw [if_neg hquery, if_pos (Or.inr hcount)]
    simp [hcount, pure, Except.pure]
  · have hheader : ¬ (buffer[2] &&& 0x80 ≠ 0 ∨ be16 buffer[4] buffer[5] = 0) := by
      simp only [hquery, hcount, or_self, not_false_eq_true]
    rw [if_neg hquery, if_neg hheader]
    cases hname : qname buffer with
    | error p => simp [hcount, bind, Except.bind, Except.map]
    | ok r =>
        cases r with
        | error e => simp [hcount, bind, Except.bind, Except.map, pure, Except.pure]
        | ok domain =>
            by_cases hempty : domain.isEmpty
            · simp [hcount, hempty, bind, Except.bind, Except.map, pure, Except.pure]
            · simp [hcount, hempty, bind, Except.bind, Except.map, pure, Except.pure]

/-- The header of a buffer that passes the checks on it. -/
theorem exists_header (hlen : 12 ≤ buffer.length) (hquery : buffer[2] &&& 0x80 = 0)
    (hcount : be16 buffer[4] buffer[5] ≠ 0) :
    ∃ header : QueryHeader, buffer = header.bytes.toList ++ buffer.drop 12 := by
  obtain ⟨bytes, hbytes⟩ : ∃ v : Vector UInt8 12, buffer.drop 0 = v.toList ++ buffer.drop 12 :=
    exists_drop_eq_append (by omega)
  have hget : ∀ i (hi : i < 12), bytes[i] = buffer[i] := by
    intro i hi
    have hlist : bytes.toList[i]? = buffer[i]? := by
      rw [← List.drop_zero (l := buffer), hbytes, List.getElem?_append_left (by simpa using hi)]
    have hlt : i < buffer.length := by omega
    rw [List.getElem?_eq_getElem hlt] at hlist
    simpa [hi] using hlist
  refine ⟨⟨bytes, ?_, ?_⟩, by rw [← hbytes, List.drop_zero]⟩
  · rw [hget 2 (by omega)]
    exact hquery
  · rw [hget 4 (by omega), hget 5 (by omega)]
    exact hcount

theorem length_le_flatMap (labels : List String) :
    labels.length ≤ (labels.flatMap labelBytes).length := by
  induction labels with
  | nil => exact Nat.le_refl 0
  | cons l ls ih =>
      rw [List.flatMap_cons, List.length_append, labelBytes, List.length_cons, List.length_cons]
      omega

theorem drop_bytes {max : Nat} (q : Query max) : q.bytes.drop 12 = q.question :=
  List.drop_left' q.header.bytes.length_toList

/-- A query is answered with its labels. -/
theorem parse_bytes (q : Query 191) :
    parse q.bytes = .ok (.ok { domainName := q.domainName }) := by
  have hlength : q.bytes.length = 12 + ((q.labels.flatMap labelBytes).length +
      (q.trailing.length + 1)) := by
    rw [Query.bytes, List.length_append, Vector.length_toList, Query.question,
      List.length_append, List.length_cons]
  have hlen : 12 ≤ q.bytes.length := by omega
  have hfuel := length_le_flatMap q.labels
  have hget : ∀ i (hi : i < 12), q.bytes[i] = q.header.bytes[i] := by
    intro i hi
    simp [Query.bytes, hi]
  obtain ⟨hjoin, hne⟩ := extend_labels q.labels_ne q.isLabel
  have hname : qname q.bytes = .ok (.ok q.domainName) := by
    rw [qname, loop_qname_of_labels q.isLabel (by omega) (drop_bytes q), hjoin]
    rfl
  have hempty : q.domainName.isEmpty = false := by simpa [Query.domainName] using hne
  have hheader : ¬ (q.bytes[2] &&& 0x80 ≠ 0 ∨ be16 q.bytes[4] q.bytes[5] = 0) := by
    rw [hget 2 (by omega), hget 4 (by omega), hget 5 (by omega), q.header.query]
    simp [q.header.questions]
  rw [parse_eq hlen, if_neg hheader, hname]
  simp [Except.map, Except.bind, hempty]

/-- The loop finds the labels of a name that is not empty. -/
theorem labels_of_qname {domain : String} (hlen : 12 ≤ buffer.length)
    (h : qname buffer = .ok (.ok domain)) (hdomain : domain ≠ "") :
    ∃ (labels : List String) (trailing : List UInt8), labels ≠ [] ∧
      (∀ l ∈ labels, IsLabel 191 l) ∧
        buffer.drop 12 = labels.flatMap labelBytes ++ 0 :: trailing ∧
          ".".intercalate labels = domain := by
  have hlt : 12 < buffer.length := by
    -- at the end of the buffer the loop answers the empty name
    by_contra hend
    have hlength : buffer.length = 12 := by omega
    rw [qname, hlength, loop] at h
    simp only [qnameStep, hlength, Nat.le_refl, if_true] at h
    exact hdomain (Except.ok.inj (Except.ok.inj h)).symm
  obtain ⟨labels, trailing, hlabels, hdrop⟩ := labels_of_loop_qname hlt h
  have hfuel : labels.length < buffer.length := by
    have hle := length_le_flatMap labels
    have hlength := congrArg List.length hdrop
    rw [List.length_drop, List.length_append, List.length_cons] at hlength
    omega
  have hloop : qname buffer = .ok (.ok (extend "" labels)) :=
    loop_qname_of_labels hlabels hfuel hdrop
  rw [h, Except.ok.injEq, Except.ok.injEq] at hloop
  have hne : labels ≠ [] := by
    rintro rfl
    exact hdomain hloop
  exact ⟨labels, trailing, hne, hlabels, hdrop, by rw [hloop, (extend_labels hne hlabels).1]⟩

/-- Nothing else is answered with a name. -/
theorem exists_query_of_parse {q : DnsQuery} (h : parse buffer = .ok (.ok q)) :
    ∃ query : Query 191, query.bytes = buffer ∧ query.domainName = q.domainName := by
  have hlen : 12 ≤ buffer.length := by
    by_contra hshort
    rw [parse, if_pos (by omega)] at h
    cases h
  rw [parse_eq hlen] at h
  by_cases hheader : buffer[2] &&& 0x80 ≠ 0 ∨ be16 buffer[4] buffer[5] = 0
  · rw [if_pos hheader] at h
    cases h
  rw [if_neg hheader] at h
  push Not at hheader
  obtain ⟨header, hbuffer⟩ := exists_header hlen hheader.1 hheader.2
  cases hname : qname buffer with
  | error p =>
      rw [hname] at h
      cases h
  | ok r =>
      rw [hname] at h
      cases r with
      | error e => cases h
      | ok domain =>
          have hanswer : (if domain.isEmpty then .error .invalidFormat
              else .ok { domainName := domain } : Result DnsQuery) = .ok q := Except.ok.inj h
          split_ifs at hanswer with hempty
          cases hanswer
          obtain ⟨labels, trailing, hne, hlabels, hdrop, hjoin⟩ :=
            labels_of_qname hlen hname (by simpa using hempty)
          refine ⟨⟨header, labels, hne, hlabels, trailing⟩, ?_, hjoin⟩
          rw [Query.bytes, Query.question, ← hdrop]
          exact hbuffer.symm

end

/-! ## One query a buffer -/

section

variable {max max' : Nat}

/-- A label is what stands in front. -/
theorem label_inj {label label' : String} {rest rest' : List UInt8} (hmax : max < 256)
    (hmax' : max' < 256) (hlabel : IsLabel max label) (hlabel' : IsLabel max' label')
    (h : labelBytes label ++ rest = labelBytes label' ++ rest') :
    label = label' ∧ rest = rest' := by
  have hlt : (utf8 label).length < 256 ^ 1 := by
    have hle := hlabel.2
    omega
  have hlt' : (utf8 label').length < 256 ^ 1 := by
    have hle := hlabel'.2
    omega
  have hwrite : (Codec.lengthPrefixed 1 Nat.one_pos).write ⟨utf8 label, hlt⟩ ++ rest =
      (Codec.lengthPrefixed 1 Nat.one_pos).write ⟨utf8 label', hlt'⟩ ++ rest' := h
  obtain ⟨hdata, hrest⟩ := Codec.append_inj hwrite
  exact ⟨utf8_inj (congrArg Prefixed.data hdata), hrest⟩

/-- No label begins with the zero byte. -/
theorem label_ne_zero {label : String} {rest trailing : List UInt8} (hmax : max < 256)
    (hlabel : IsLabel max label) : labelBytes label ++ rest ≠ 0 :: trailing := by
  intro h
  rw [labelBytes, List.cons_append, List.cons.injEq] at h
  exact (lengthByte hmax hlabel).2 h.1

theorem labels_inj {labels labels' : List String} {trailing trailing' : List UInt8}
    (hmax : max < 256) (hmax' : max' < 256) (hlabels : ∀ l ∈ labels, IsLabel max l)
    (hlabels' : ∀ l ∈ labels', IsLabel max' l)
    (h : labels.flatMap labelBytes ++ 0 :: trailing =
      labels'.flatMap labelBytes ++ 0 :: trailing') : labels = labels' := by
  induction labels generalizing labels' with
  | nil =>
      cases labels' with
      | nil => rfl
      | cons l' ls' =>
          rw [List.flatMap_cons, List.append_assoc] at h
          exact absurd h.symm (label_ne_zero hmax' (hlabels' l' List.mem_cons_self))
  | cons l ls ih =>
      obtain ⟨hl, hls⟩ := List.forall_mem_cons.mp hlabels
      rw [List.flatMap_cons, List.append_assoc] at h
      cases labels' with
      | nil => exact absurd h (label_ne_zero hmax hl)
      | cons l' ls' =>
          obtain ⟨hl', hls'⟩ := List.forall_mem_cons.mp hlabels'
          rw [List.flatMap_cons, List.append_assoc] at h
          obtain ⟨rfl, hrest⟩ := label_inj hmax hmax' hl hl' h
          rw [ih hls hls' hrest]

end

end DnsQuery

namespace Query

variable {max max' : Nat}

/-- The labels of a query are determined by its bytes. -/
theorem labels_eq (hmax : max < 256) (hmax' : max' < 256) {q : Query max} {q' : Query max'}
    (h : q.bytes = q'.bytes) : q.labels = q'.labels := by
  have hquestion := congrArg (List.drop 12) h
  rw [DnsQuery.drop_bytes, DnsQuery.drop_bytes] at hquestion
  exact DnsQuery.labels_inj hmax hmax' q.isLabel q'.isLabel hquestion

/-- A query whose labels are shorter than they may be. -/
def widen (q : Query max) (hle : max ≤ max') : Query max' where
  header := q.header
  labels := q.labels
  labels_ne := q.labels_ne
  isLabel l hl := ⟨(q.isLabel l hl).1, Nat.le_trans (q.isLabel l hl).2 hle⟩
  trailing := q.trailing

end Query

/-! ## The names of the standard -/

/-- What `DnsQuery::parse` makes of a query with the labels of the standard. -/
theorem dnsQuery_parse_bytes (q : Query 63) :
    DnsQuery.parse q.bytes = .ok (.ok { domainName := q.domainName }) :=
  DnsQuery.parse_bytes (q.widen (by decide))

/-- `DnsQuery::parse` accepts the queries with the labels of the standard only,
and refuses all other buffers, exactly if no label is longer than those. -/
theorem dnsQuery_standard_iff (buffer : List UInt8) :
    ((∀ q, DnsQuery.parse buffer = .ok (.ok q) →
        ∃ query : Query 63, query.bytes = buffer ∧ query.domainName = q.domainName) ∧
      ((∀ query : Query 63, query.bytes ≠ buffer) →
        ∃ e, DnsQuery.parse buffer = .ok (.error e))) ↔
      ∀ query : Query 191, query.bytes = buffer →
        ∀ l ∈ query.labels, (utf8 l).length ≤ 63 := by
  constructor
  · rintro ⟨haccepts, -⟩ query rfl l hl
    obtain ⟨query', hbytes, -⟩ := haccepts _ (DnsQuery.parse_bytes query)
    have hlabels := Query.labels_eq (by decide) (by decide) hbytes
    exact (query'.isLabel l (hlabels ▸ hl)).2
  · intro hshort
    have haccepts : ∀ q, DnsQuery.parse buffer = .ok (.ok q) →
        ∃ query : Query 63, query.bytes = buffer ∧ query.domainName = q.domainName := by
      intro q hq
      obtain ⟨query, hbytes, hname⟩ := DnsQuery.exists_query_of_parse hq
      exact ⟨⟨query.header, query.labels, query.labels_ne,
        fun l hl => ⟨(query.isLabel l hl).1, hshort query hbytes l hl⟩, query.trailing⟩,
        hbytes, hname⟩
    refine ⟨haccepts, fun hnone => ?_⟩
    obtain ⟨r, hr⟩ := DnsQuery.parse_returns buffer
    cases r with
    | error e => exact ⟨e, hr⟩
    | ok q =>
        obtain ⟨query, hbytes, -⟩ := haccepts q hr
        exact absurd hbytes (hnone query)

/-- A query for a label of 64 bytes. -/
def longLabelQuery : List UInt8 :=
  [0, 0, 0, 0, 0, 1, 0, 0, 0, 0, 0, 0] ++ (64 :: (List.replicate 64 97 ++ [0, 0, 1, 0, 1]))

/-- A length byte of the reserved range is taken for a label. -/
theorem dnsQuery_accepts_reserved :
    ¬ ∀ buffer : List UInt8,
      (∀ q, DnsQuery.parse buffer = .ok (.ok q) →
        ∃ query : Query 63, query.bytes = buffer ∧ query.domainName = q.domainName) ∧
      ((∀ query : Query 63, query.bytes ≠ buffer) →
        ∃ e, DnsQuery.parse buffer = .ok (.error e)) := by
  intro hall
  have hparse : DnsQuery.parse longLabelQuery =
      .ok (.ok { domainName := String.ofList (List.replicate 64 'a') }) := by
    decide
  obtain ⟨query, hbytes, -⟩ := (hall longLabelQuery).1 _ hparse
  obtain ⟨l, ls, hlabels⟩ := List.exists_cons_of_ne_nil query.labels_ne
  have hlabel : IsLabel 63 l := query.isLabel l (hlabels ▸ List.mem_cons_self)
  have hquestion := congrArg (List.drop 12) hbytes
  rw [DnsQuery.drop_bytes, Query.question, hlabels, List.flatMap_cons, List.append_assoc]
    at hquestion
  have hfirst : UInt8.ofNat (utf8 l).length = 64 := (List.cons.inj hquestion).1
  have hlen := (DnsQuery.lengthByte (by decide) hlabel).1
  have hle := hlabel.2
  rw [hfirst] at hlen
  have h64 : (64 : UInt8).toNat = 64 := rfl
  omega

end NetZer
