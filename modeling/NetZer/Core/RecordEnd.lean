import NetZer.Core.HelloGrammar

/-! # How far `TlsClientHello::parse` reads

The record says where it ends, and the parser makes sure that the buffer goes
that far. The lengths inside the record are then compared with the end of the
buffer. A hello whose fields end inside its record is answered from the record
alone; of any other, what follows the record is read as if it belonged to it.
-/

namespace NetZer

open Rust Bytes

namespace TlsClientHello

/-! ## Lengths that claim too much -/

/-- Behind names of other types stands an entry that claims more than is left. -/
def NamesOverrun (list : List UInt8) : Prop :=
  ∃ (names : List NameEntry) (rest : List UInt8), (∀ n ∈ names, nameType n ≠ 0) ∧
    list = names.flatMap nameEntry.write ++ rest ∧
      3 ≤ rest.length ∧ rest.length < 3 + numberAt 2 rest 1

/-- Behind extensions that are passed over stands an extension that claims more
than is left, or a list of names in which an entry does. -/
def BlockOverruns (block : List UInt8) : Prop :=
  ∃ (passed : List Extension) (rest : List UInt8), (∀ e ∈ passed, PassedOver e) ∧
    block = passed.flatMap extension.write ++ rest ∧
      (4 ≤ rest.length ∧ rest.length < 4 + numberAt 2 rest 2 ∨
        ∃ (data : Prefixed 2) (listLength : Vector UInt8 2) (list after : List UInt8),
          data.data = listLength.toList ++ list ∧ NamesOverrun list ∧
            rest = extension.write (serverNameType, data) ++ after)

theorem nameVerdict_ne_overrun {e : NameEntry} :
    nameVerdict e ≠ some (some (.error .bufferTooShort)) := by
  unfold nameVerdict hostName
  split_ifs
  · cases Text.fromUtf8 e.2.data with
    | none => simp
    | some name => simp
  · simp

theorem namesAnswer_eq_overrun_iff {list : List UInt8} :
    namesAnswer list = some (.error .bufferTooShort) ↔ NamesOverrun list := by
  have hend : ∀ rest, namesEnd rest = some (.error .bufferTooShort) ↔ 3 ≤ rest.length := by
    intro rest
    simp [namesEnd]
  have hsilent : namesAnswer list = some (.error .bufferTooShort) ↔
      (nameEntry.readAll list).1.findSome? nameVerdict = none ∧
        3 ≤ (nameEntry.readAll list).2.length := by
    unfold namesAnswer
    cases hfound : (nameEntry.readAll list).1.findSome? nameVerdict with
    | none => simp [hend]
    | some r =>
        obtain ⟨e, -, he⟩ := List.exists_of_findSome?_eq_some hfound
        have hne : r ≠ some (.error .bufferTooShort) := by
          rintro rfl
          exact nameVerdict_ne_overrun he
        simp [hne]
  rw [hsilent]
  constructor
  · rintro ⟨hnone, hlen⟩
    obtain ⟨names, hlist, hread, hnames⟩ :=
      nameEntry.findSome?_readAll_eq_none_iff.mp ⟨hnone, rfl⟩
    exact ⟨names, _, fun n hn => nameVerdict_eq_none_iff.mp (hnames n hn), hlist, hlen,
      Codec.entry_read_eq_none_iff.mp hread⟩
  · rintro ⟨names, rest, hnames, hlist, hlen, hover⟩
    have hread : nameEntry.read rest = none := Codec.entry_read_eq_none_iff.mpr hover
    obtain ⟨hnone, hrest⟩ := nameEntry.findSome?_readAll_eq_none_iff.mpr
      ⟨names, hlist, hread, fun n hn => nameVerdict_eq_none_iff.mpr (hnames n hn)⟩
    exact ⟨hnone, hrest ▸ hlen⟩

/-- An extension that decides on its own is a `server_name` extension. -/
theorem type_of_extensionVerdict {e : Extension} {r : Result String}
    (h : extensionVerdict e = some r) : e.1 = serverNameType := by
  by_contra hne
  rw [extensionVerdict_eq_none_iff.mpr (Or.inl hne)] at h
  cases h

theorem blockAnswer_eq_overrun_iff {block : List UInt8} :
    blockAnswer block = .error .bufferTooShort ↔ BlockOverruns block := by
  have hend : ∀ rest, extensionsRest rest = .error .bufferTooShort ↔ 4 ≤ rest.length := by
    intro rest
    simp [extensionsRest]
  have hcases : blockAnswer block = .error .bufferTooShort ↔
      ((extension.readAll block).1.findSome? extensionVerdict = none ∧
        4 ≤ (extension.readAll block).2.length) ∨
      (extension.readAll block).1.findSome? extensionVerdict =
        some (.error .bufferTooShort) := by
    unfold blockAnswer
    cases (extension.readAll block).1.findSome? extensionVerdict with
    | none => simp [hend]
    | some r => simp
  rw [hcases, Codec.findSome?_readAll_eq_some_iff]
  constructor
  · rintro (⟨hnone, hlen⟩ | ⟨passed, e, after, hblock, hpassed, he⟩)
    · obtain ⟨passed, hblock, hread, hpassed⟩ :=
        extension.findSome?_readAll_eq_none_iff.mp ⟨hnone, rfl⟩
      exact ⟨passed, _, fun x hx => extensionVerdict_eq_none_iff.mp (hpassed x hx), hblock,
        Or.inl ⟨hlen, Codec.entry_read_eq_none_iff.mp hread⟩⟩
    · have htype := type_of_extensionVerdict he
      obtain ⟨listLength, list, hdata, hanswer⟩ := exists_list_of_verdict htype (by simp [he])
      rw [hanswer, namesAnswer_eq_overrun_iff] at he
      refine ⟨passed, extension.write e ++ after,
        fun x hx => extensionVerdict_eq_none_iff.mp (hpassed x hx), hblock,
        Or.inr ⟨e.2, listLength, _, after, hdata, he, ?_⟩⟩
      rw [← htype]
  · rintro ⟨passed, rest, hpassed, hblock, ⟨hlen, hover⟩ | ⟨data, listLength, list, after, hdata,
      hnames, rfl⟩⟩
    · left
      have hread : extension.read rest = none := Codec.entry_read_eq_none_iff.mpr hover
      obtain ⟨hnone, hrest⟩ := extension.findSome?_readAll_eq_none_iff.mpr
        ⟨passed, hblock, hread, fun x hx => extensionVerdict_eq_none_iff.mpr (hpassed x hx)⟩
      exact ⟨hnone, hrest ▸ hlen⟩
    · right
      have hverdict : extensionVerdict (serverNameType, data) = namesAnswer list :=
        extensionVerdict_of_names rfl hdata
      refine ⟨passed, (serverNameType, data), after, hblock,
        fun x hx => extensionVerdict_eq_none_iff.mpr (hpassed x hx), ?_⟩
      rw [hverdict, namesAnswer_eq_overrun_iff]
      exact hnames

theorem hostName_cases (bs : List UInt8) :
    (∃ host, hostName bs = .ok host) ∨ hostName bs = .error .invalidFormat := by
  unfold hostName
  cases Text.fromUtf8 bs with
  | none => exact Or.inr rfl
  | some name => exact Or.inl ⟨name, rfl⟩

/-- The answers a list of names can give. -/
theorem namesAnswer_cases {list : List UInt8} {r : Result String} (h : namesAnswer list = some r) :
    (∃ host, r = .ok host) ∨ r = .error .bufferTooShort ∨ r = .error .invalidFormat := by
  unfold namesAnswer at h
  cases hfound : (nameEntry.readAll list).1.findSome? nameVerdict with
  | none =>
      rw [hfound, Option.getD_none, namesEnd] at h
      split_ifs at h
      cases h
      exact Or.inr (Or.inl rfl)
  | some v =>
      obtain ⟨e, -, he⟩ := List.exists_of_findSome?_eq_some hfound
      rw [hfound, Option.getD_some] at h
      subst h
      unfold nameVerdict at he
      split_ifs at he
      cases he
      obtain ⟨host, hhost⟩ | hformat := hostName_cases e.2.data
      · exact Or.inl ⟨host, hhost⟩
      · exact Or.inr (Or.inr hformat)

/-- The answers a block can give. -/
theorem blockAnswer_cases (block : List UInt8) :
    (∃ host, blockAnswer block = .ok host) ∨ blockAnswer block = .error .bufferTooShort ∨
      blockAnswer block = .error .invalidFormat := by
  unfold blockAnswer
  cases hfound : (extension.readAll block).1.findSome? extensionVerdict with
  | none =>
      rw [Option.getD_none, extensionsRest]
      split_ifs
      · exact Or.inr (Or.inr rfl)
      · exact Or.inr (Or.inl rfl)
  | some r =>
      obtain ⟨e, -, he⟩ := List.exists_of_findSome?_eq_some hfound
      rw [Option.getD_some]
      by_cases hformat : extensionVerdict e = some (.error .invalidFormat)
      · rw [hformat, Option.some.injEq] at he
        exact Or.inr (Or.inr he.symm)
      · obtain ⟨_, list, _, hanswer⟩ := exists_list_of_verdict (type_of_extensionVerdict he) hformat
        exact namesAnswer_cases (hanswer ▸ he)

theorem blockAnswer_eq_format_iff {block : List UInt8} :
    blockAnswer block = .error .invalidFormat ↔
      ¬ BlockOverruns block ∧ ∀ b : HostBlock, b.bytes ≠ block := by
  rw [← blockAnswer_eq_overrun_iff]
  have hhost : (∀ b : HostBlock, b.bytes ≠ block) ↔ ∀ host, blockAnswer block ≠ .ok host := by
    constructor
    · intro h host hok
      obtain ⟨b, hb, -⟩ := blockAnswer_eq_ok_iff.mp hok
      exact h b hb
    · intro h b hb
      exact h b.list.host (blockAnswer_eq_ok_iff.mpr ⟨b, hb, rfl⟩)
  rw [hhost]
  obtain ⟨host, hok⟩ | hshort | hformat := blockAnswer_cases block
  · simp [hok]
  · simp [hshort]
  · simp [hformat]

/-! ## The record and the buffer -/

section

variable {buffer : List UInt8} {limit : Nat}

/-- The hello seems to end with its compression methods. -/
def EndsEarly (buffer : List UInt8) (limit : Nat) : Prop :=
  compressionAt buffer < limit ∧ limit < extensionsAt buffer + 2

/-- A field of the hello goes beyond the limit. -/
def CutShort (buffer : List UInt8) (limit : Nat) : Prop :=
  limit < extensionsEnd buffer ∧ ¬ EndsEarly buffer limit

theorem cutOff_of_endsEarly (h : EndsEarly buffer limit) :
    cutOff buffer limit = some .invalidFormat := by
  obtain ⟨hciphers, hcompression, hextensions, hblock⟩ := @offsets_le buffer
  obtain ⟨hmethods, hlength⟩ := h
  rw [cutOff, if_neg (by omega), if_neg (by omega), if_neg (by omega), if_pos hlength]

theorem cutOff_of_cutShort (h : CutShort buffer limit) :
    cutOff buffer limit = some .bufferTooShort := by
  obtain ⟨hend, hearly⟩ := h
  unfold EndsEarly at hearly
  unfold cutOff
  split_ifs
  all_goals first | rfl | omega

theorem cutOff_cases (buffer : List UInt8) (limit : Nat) :
    extensionsEnd buffer ≤ limit ∨ CutShort buffer limit ∨ EndsEarly buffer limit := by
  by_cases hend : extensionsEnd buffer ≤ limit
  · exact Or.inl hend
  · by_cases hearly : EndsEarly buffer limit
    · exact Or.inr (Or.inr hearly)
    · exact Or.inr (Or.inl ⟨by omega, hearly⟩)

/-! Nothing below a limit depends on what is behind it. -/

theorem cipherSuitesAt_take (h : 44 ≤ limit) :
    cipherSuitesAt (buffer.take limit) = cipherSuitesAt buffer := by
  rw [cipherSuitesAt, numberAt_take (by omega), cipherSuitesAt]

theorem compressionAt_take (h : cipherSuitesAt buffer + 2 ≤ limit) :
    compressionAt (buffer.take limit) = compressionAt buffer := by
  obtain ⟨hciphers, -⟩ := @offsets_le buffer
  rw [compressionAt, cipherSuitesAt_take (by omega), numberAt_take h, compressionAt]

theorem extensionsAt_take (h : compressionAt buffer + 1 ≤ limit) :
    extensionsAt (buffer.take limit) = extensionsAt buffer := by
  obtain ⟨-, hcompression, -⟩ := @offsets_le buffer
  rw [extensionsAt, compressionAt_take (by omega), numberAt_take h, extensionsAt]

theorem extensionsEnd_take (h : extensionsAt buffer + 2 ≤ limit) :
    extensionsEnd (buffer.take limit) = extensionsEnd buffer := by
  obtain ⟨-, -, hextensions, -⟩ := @offsets_le buffer
  rw [extensionsEnd, extensionsAt_take (by omega), numberAt_take h, extensionsEnd]

theorem block_take (h : extensionsEnd buffer ≤ limit) :
    block (buffer.take limit) = block buffer := by
  obtain ⟨-, -, hextensions, hend⟩ := @offsets_le buffer
  have hmin : min (extensionsEnd buffer) limit = extensionsEnd buffer := by omega
  rw [block, extensionsEnd_take (by omega), extensionsAt_take (by omega), List.take_take, hmin,
    block]

theorem cutOff_take : cutOff (buffer.take limit) limit = cutOff buffer limit := by
  unfold cutOff
  by_cases h43 : limit ≤ 43
  · rw [if_pos h43, if_pos h43]
  rw [if_neg h43, if_neg h43, cipherSuitesAt_take (by omega)]
  by_cases hc : limit < cipherSuitesAt buffer + 2
  · rw [if_pos hc, if_pos hc]
  rw [if_neg hc, if_neg hc, compressionAt_take (by omega)]
  by_cases hm : limit < compressionAt buffer + 1
  · rw [if_pos hm, if_pos hm]
  rw [if_neg hm, if_neg hm, extensionsAt_take (by omega)]
  by_cases he : limit < extensionsAt buffer + 2
  · rw [if_pos he, if_pos he]
  rw [if_neg he, if_neg he, extensionsEnd_take (by omega)]

theorem helloAnswer_take (h : 6 ≤ limit) :
    helloAnswer (buffer.take limit) limit = helloAnswer buffer limit := by
  have hone : numberAt 1 (buffer.take limit) 5 = numberAt 1 buffer 5 := numberAt_take h
  rw [helloAnswer, helloAnswer, hone, cutOff_take]
  cases hcut : cutOff buffer limit with
  | some e => rw [Option.elim_some, Option.elim_some]
  | none => rw [block_take (cutOff_eq_none_iff.mp hcut)]

/-- Where the record ends. -/
def recordEnd (buffer : List UInt8) : Nat :=
  5 + numberAt 2 buffer 3

/-- The checks on the record header: its type, and its length against that of
the buffer. -/
structure IsRecord (buffer : List UInt8) : Prop where
  header : 5 ≤ buffer.length
  type : numberAt 1 buffer 0 = 22
  fits : recordEnd buffer ≤ buffer.length

theorem IsRecord.take (h : IsRecord buffer) :
    IsRecord (buffer.take (recordEnd buffer)) ∧
      recordEnd (buffer.take (recordEnd buffer)) = recordEnd buffer := by
  have hlen : 5 ≤ recordEnd buffer := Nat.le_add_right _ _
  have hend : recordEnd (buffer.take (recordEnd buffer)) = recordEnd buffer := by
    rw [recordEnd, numberAt_take (by omega), ← recordEnd]
  have hlength : (buffer.take (recordEnd buffer)).length = recordEnd buffer :=
    List.length_take_of_le h.fits
  have htype : numberAt 1 (buffer.take (recordEnd buffer)) 0 = 22 := by
    rw [numberAt_take (by omega), h.type]
  exact ⟨⟨by omega, htype, by omega⟩, hend⟩

/-- What a record of at least a byte is answered. -/
theorem IsRecord.parse_eq (h : IsRecord buffer) (hlen : 6 ≤ buffer.length) :
    parse buffer = .ok ((helloAnswer buffer buffer.length).map TlsClientHello.mk) :=
  parse_of_record hlen h.type h.fits

/-- What the record alone is answered. -/
theorem IsRecord.parse_take (h : IsRecord buffer) (hlen : 6 ≤ recordEnd buffer) :
    parse (buffer.take (recordEnd buffer)) =
      .ok ((helloAnswer buffer (recordEnd buffer)).map TlsClientHello.mk) := by
  have hlength : (buffer.take (recordEnd buffer)).length = recordEnd buffer :=
    List.length_take_of_le h.fits
  rw [h.take.1.parse_eq (by omega), hlength, helloAnswer_take hlen]

/-- Nothing behind the record is read that would change the answer: nothing is
there; or the record is no hello; or it ends behind the extension block; or it
ends within a field, and what the whole buffer makes of the hello fails with the
same error. -/
def AnsweredByRecord (buffer : List UInt8) : Prop :=
  buffer.length = recordEnd buffer ∨
    5 < recordEnd buffer ∧ (numberAt 1 buffer 5 ≠ 1 ∨ extensionsEnd buffer ≤ recordEnd buffer ∨
      CutShort buffer (recordEnd buffer) ∧ (CutShort buffer buffer.length ∨
        extensionsEnd buffer ≤ buffer.length ∧ BlockOverruns (block buffer)) ∨
      EndsEarly buffer (recordEnd buffer) ∧ (EndsEarly buffer buffer.length ∨
        extensionsEnd buffer ≤ buffer.length ∧ ¬ BlockOverruns (block buffer) ∧
          ∀ b : HostBlock, b.bytes ≠ block buffer))

theorem helloAnswer_of_fits (hone : numberAt 1 buffer 5 = 1) (h : extensionsEnd buffer ≤ limit) :
    helloAnswer buffer limit = blockAnswer (block buffer) := by
  simp [helloAnswer, cutOff_eq_none_iff.mpr h, hone]

theorem helloAnswer_of_cutShort (hone : numberAt 1 buffer 5 = 1) (h : CutShort buffer limit) :
    helloAnswer buffer limit = .error .bufferTooShort := by
  simp [helloAnswer, cutOff_of_cutShort h, hone]

theorem helloAnswer_of_endsEarly (hone : numberAt 1 buffer 5 = 1) (h : EndsEarly buffer limit) :
    helloAnswer buffer limit = .error .invalidFormat := by
  simp [helloAnswer, cutOff_of_endsEarly h, hone]

theorem not_cutOff_of_fits (h : extensionsEnd buffer ≤ limit) :
    ¬ CutShort buffer limit ∧ ¬ EndsEarly buffer limit := by
  obtain ⟨-, -, hextensions, hend⟩ := @offsets_le buffer
  refine ⟨fun hshort => ?_, fun hearly => ?_⟩
  · exact Nat.not_lt.mpr h hshort.1
  · exact Nat.not_lt.mpr (Nat.le_trans hend h) hearly.2

theorem not_fits_of_endsEarly (h : EndsEarly buffer limit) :
    ¬ extensionsEnd buffer ≤ limit ∧ ¬ CutShort buffer limit := by
  refine ⟨fun hfits => (not_cutOff_of_fits hfits).2 h, fun hshort => hshort.2 h⟩

/-- The answers below two limits agree exactly if the fields below the first
say why. -/
theorem helloAnswer_eq_iff {whole : Nat} (hle : limit ≤ whole) (hone : numberAt 1 buffer 5 = 1) :
    helloAnswer buffer whole = helloAnswer buffer limit ↔
      extensionsEnd buffer ≤ limit ∨
        CutShort buffer limit ∧ (CutShort buffer whole ∨
          extensionsEnd buffer ≤ whole ∧ BlockOverruns (block buffer)) ∨
        EndsEarly buffer limit ∧ (EndsEarly buffer whole ∨
          extensionsEnd buffer ≤ whole ∧ ¬ BlockOverruns (block buffer) ∧
            ∀ b : HostBlock, b.bytes ≠ block buffer) := by
  rw [← blockAnswer_eq_format_iff, ← blockAnswer_eq_overrun_iff]
  obtain hfits | hshort | hearly := cutOff_cases buffer limit
  · have hwhole : extensionsEnd buffer ≤ whole := Nat.le_trans hfits hle
    rw [helloAnswer_of_fits hone hfits, helloAnswer_of_fits hone hwhole]
    exact iff_of_true rfl (Or.inl hfits)
  · have hend : ¬ extensionsEnd buffer ≤ limit := Nat.not_le.mpr hshort.1
    have hlimit : ¬ EndsEarly buffer limit := hshort.2
    rw [helloAnswer_of_cutShort hone hshort]
    simp only [hend, hshort, hlimit, true_and, false_and, or_false, false_or]
    obtain hwhole | hwhole | hwhole := cutOff_cases buffer whole
    · have hother := (not_cutOff_of_fits hwhole).1
      simp only [helloAnswer_of_fits hone hwhole, hother, hwhole, true_and, false_or]
    · simp only [helloAnswer_of_cutShort hone hwhole, hwhole, true_or]
    · have hother := not_fits_of_endsEarly hwhole
      simp [helloAnswer_of_endsEarly hone hwhole, hother]
  · have hlimit := not_fits_of_endsEarly hearly
    rw [helloAnswer_of_endsEarly hone hearly]
    simp only [hlimit.1, hlimit.2, hearly, true_and, false_and, false_or]
    obtain hwhole | hwhole | hwhole := cutOff_cases buffer whole
    · have hother := (not_cutOff_of_fits hwhole).2
      simp only [helloAnswer_of_fits hone hwhole, hother, hwhole, true_and, false_or]
    · have hend : ¬ extensionsEnd buffer ≤ whole := Nat.not_le.mpr hwhole.1
      have hother : ¬ EndsEarly buffer whole := hwhole.2
      simp [helloAnswer_of_cutShort hone hwhole, hend, hother]
    · simp only [helloAnswer_of_endsEarly hone hwhole, hwhole, true_or]

/-- An empty record alone panics. -/
theorem IsRecord.parse_take_of_empty (h : IsRecord buffer) (hempty : recordEnd buffer = 5) :
    parse (buffer.take (recordEnd buffer)) = .error ⟨.index, [.tlsClientHelloParse]⟩ := by
  have hlen : (buffer.take (recordEnd buffer)).length = 5 := by
    rw [List.length_take_of_le h.fits, hempty]
  have hzero : numberAt 2 (buffer.take (recordEnd buffer)) 3 = 0 := by
    have hend := h.take.2
    rw [hempty] at hend ⊢
    unfold recordEnd at hend
    omega
  obtain ⟨major, minor, hheader⟩ := eq_empty_record hlen h.take.1.type hzero
  rw [hheader, parse_empty_record]

/-- The buffer and its record are answered alike exactly if the record decides. -/
theorem IsRecord.parse_take_iff (h : IsRecord buffer) :
    parse buffer = parse (buffer.take (recordEnd buffer)) ↔ AnsweredByRecord buffer := by
  unfold AnsweredByRecord
  by_cases hsame : buffer.length = recordEnd buffer
  · rw [← hsame, List.take_length]
    exact iff_of_true rfl (Or.inl rfl)
  have hfits := h.fits
  have hlong : 6 ≤ buffer.length := by
    unfold recordEnd at *
    omega
  by_cases hempty : recordEnd buffer = 5
  · have hlen : buffer.length ≠ 5 := hempty ▸ hsame
    rw [h.parse_take_of_empty hempty, h.parse_eq hlong]
    simp [hlen, hempty]
  · have hrecord : 5 < recordEnd buffer := by
      unfold recordEnd at *
      omega
    rw [h.parse_eq hlong, h.parse_take hrecord, answer_inj]
    by_cases hone : numberAt 1 buffer 5 = 1
    · simp only [hsame, hrecord, hone, helloAnswer_eq_iff hfits hone, ne_eq, not_true_eq_false,
        false_or, true_and]
    · simp [helloAnswer, hone, hrecord]

theorem nameEnd_le (hello : ClientHello) : hello.nameEnd ≤ extensionsEnd hello.bytes := by
  have hend := extensionsEnd_bytes hello
  have hafter : hello.trailing.length ≤ hello.afterName.length := by
    simp only [ClientHello.afterName, List.length_append]
    omega
  unfold ClientHello.nameEnd
  omega

/-- If the record alone is answered with a name, the extension block ends in it. -/
theorem IsRecord.extensionsEnd_le (h : IsRecord buffer) {host : String}
    (hparse : parse (buffer.take (recordEnd buffer)) = .ok (.ok { sni := host })) :
    extensionsEnd buffer ≤ recordEnd buffer := by
  by_cases hempty : recordEnd buffer = 5
  · rw [h.parse_take_of_empty hempty] at hparse
    cases hparse
  · have hrecord : 5 < recordEnd buffer := by
      unfold recordEnd at *
      omega
    rw [h.parse_take hrecord] at hparse
    have hanswer : helloAnswer buffer (recordEnd buffer) = .ok host := answer_inj.mp hparse
    exact (helloAnswer_eq_ok_iff.mp hanswer).2.1

end

end TlsClientHello

/-- What `TlsClientHello::parse` answers depends on the bytes of the record only,
and a name it answers with lies in them, exactly if the record decides. -/
theorem clientHello_record_iff (buffer : List UInt8) (h : TlsClientHello.IsRecord buffer) :
    (TlsClientHello.parse buffer =
        TlsClientHello.parse (buffer.take (TlsClientHello.recordEnd buffer)) ∧
      ∀ host, TlsClientHello.parse buffer = .ok (.ok { sni := host }) →
        ∃ hello : ClientHello, hello.bytes = buffer ∧ hello.serverName = host ∧
          hello.nameEnd ≤ TlsClientHello.recordEnd buffer) ↔
      TlsClientHello.AnsweredByRecord buffer := by
  rw [h.parse_take_iff, and_iff_left_iff_imp]
  intro hanswered host hparse
  obtain ⟨hello, -, hbytes, hname⟩ := TlsClientHello.exists_hello_of_parse hparse
  have hrecord := h.extensionsEnd_le ((h.parse_take_iff.mpr hanswered).symm.trans hparse)
  have hend := TlsClientHello.nameEnd_le hello
  rw [hbytes] at hend
  exact ⟨hello, hbytes, hname, Nat.le_trans hend hrecord⟩

/-- A hello that names `a`, in a record that announces its first byte only. -/
def leakyHello : List UInt8 :=
  [22, 3, 1, 0, 1] ++ ([1, 0, 0, 0, 3, 3] ++ (List.replicate 32 0 ++
    [0, 0, 0, 0, 0, 10, 0, 0, 0, 6, 0, 4, 0, 0, 1, 97]))

theorem clientHello_record_leaky :
    (TlsClientHello.parse leakyHello =
        TlsClientHello.parse (leakyHello.take (TlsClientHello.recordEnd leakyHello)) ∧
      ∀ host, TlsClientHello.parse leakyHello = .ok (.ok { sni := host }) →
        ∃ hello : ClientHello, hello.bytes = leakyHello ∧ hello.serverName = host ∧
          hello.nameEnd ≤ TlsClientHello.recordEnd leakyHello) ↔
      TlsClientHello.AnsweredByRecord leakyHello :=
  clientHello_record_iff leakyHello ⟨by decide, by decide, by decide⟩

/-- The name is found behind the record. -/
theorem clientHello_reads_past_record :
    ¬ ∀ buffer : List UInt8, TlsClientHello.IsRecord buffer →
      TlsClientHello.parse buffer =
          TlsClientHello.parse (buffer.take (TlsClientHello.recordEnd buffer)) ∧
        ∀ host, TlsClientHello.parse buffer = .ok (.ok { sni := host }) →
          ∃ hello : ClientHello, hello.bytes = buffer ∧ hello.serverName = host ∧
            hello.nameEnd ≤ TlsClientHello.recordEnd buffer := by
  intro hall
  have hrecord : TlsClientHello.IsRecord leakyHello := ⟨by decide, by decide, by decide⟩
  have hsame := (hall leakyHello hrecord).1
  have hbuffer : TlsClientHello.parse leakyHello = .ok (.ok { sni := "a" }) := by
    decide
  have halone : TlsClientHello.parse (leakyHello.take (TlsClientHello.recordEnd leakyHello)) =
      .ok (.error .bufferTooShort) := by
    decide
  rw [hbuffer, halone] at hsame
  cases hsame

end NetZer
