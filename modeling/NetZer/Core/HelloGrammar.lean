import NetZer.Core.ClientHello

/-! # The grammar of a ClientHello with a host name

The buffers `TlsClientHello::parse` accepts, written down field by field as the
TLS standards lay them out: the record header, the handshake header, the fixed
fields, four vectors behind their lengths, and in the last of them a
`server_name` extension with a host name.
-/

namespace NetZer

open Rust Bytes Text

/-- A server name list with a host name: entries of other types, the host name,
and anything behind it. -/
structure HostList where
  others : List TlsClientHello.NameEntry
  others_ne : ∀ e ∈ others, TlsClientHello.nameType e ≠ 0
  name : Prefixed 2
  host : String
  name_eq : name.data = utf8 host
  rest : List UInt8

def HostList.bytes (l : HostList) : List UInt8 :=
  l.others.flatMap TlsClientHello.nameEntry.write ++
    (TlsClientHello.nameEntry.write (#v[0], l.name) ++ l.rest)

/-- An extension that does not end the search: of another type, or a list of
names none of which is a host name, with less than an entry behind them. -/
def PassedOver (e : TlsClientHello.Extension) : Prop :=
  e.1 ≠ TlsClientHello.serverNameType ∨
    ∃ (listLength : Vector UInt8 2) (names : List TlsClientHello.NameEntry) (rest : List UInt8),
      (∀ n ∈ names, TlsClientHello.nameType n ≠ 0) ∧ rest.length < 3 ∧
        e.2.data = listLength.toList ++ (names.flatMap TlsClientHello.nameEntry.write ++ rest)

/-- An extension block with a host name: extensions that are passed over, the
`server_name` extension, and anything behind it. -/
structure HostBlock where
  passed : List TlsClientHello.Extension
  passed_over : ∀ e ∈ passed, PassedOver e
  listLength : Vector UInt8 2
  list : HostList
  data_lt : (listLength.toList ++ list.bytes).length < 256 ^ 2
  rest : List UInt8

namespace HostBlock

variable (b : HostBlock)

/-- The data of the `server_name` extension. -/
def data : Prefixed 2 :=
  ⟨b.listLength.toList ++ b.list.bytes, b.data_lt⟩

def bytes : List UInt8 :=
  b.passed.flatMap TlsClientHello.extension.write ++
    (TlsClientHello.extension.write (TlsClientHello.serverNameType, b.data) ++ b.rest)

end HostBlock

/-- A handshake record with a ClientHello that names a host. The record may
announce less than what follows its header. -/
structure ClientHello where
  recordVersion : Vector UInt8 2
  recordLength : Nat
  recordLength_lt : recordLength < 256 ^ 2
  handshakeLength : Vector UInt8 3
  version : Vector UInt8 2
  random : Vector UInt8 32
  sessionId : Prefixed 1
  cipherSuites : Prefixed 2
  compressionMethods : Prefixed 1
  block : HostBlock
  block_lt : block.bytes.length < 256 ^ 2
  trailing : List UInt8

namespace ClientHello

variable (hello : ClientHello)

def extensions : Prefixed 2 :=
  ⟨hello.block.bytes, hello.block_lt⟩

/-- What follows the random bytes. -/
def vectors : List UInt8 :=
  hello.sessionId.bytes ++ (hello.cipherSuites.bytes ++
    (hello.compressionMethods.bytes ++ (hello.extensions.bytes ++ hello.trailing)))

/-- What follows the record header. -/
def message : List UInt8 :=
  [1] ++ (hello.handshakeLength.toList ++ (hello.version.toList ++
    (hello.random.toList ++ hello.vectors)))

def bytes : List UInt8 :=
  [22] ++ (hello.recordVersion.toList ++
    (Order.big.bytes 2 hello.recordLength ++ hello.message))

/-- The record is there in full. -/
def RecordFits : Prop :=
  hello.recordLength ≤ hello.message.length

def serverName : String :=
  hello.block.list.host

/-- What follows the host name. -/
def afterName : List UInt8 :=
  hello.block.list.rest ++ (hello.block.rest ++ hello.trailing)

/-- Where the host name ends. -/
def nameEnd : Nat :=
  hello.bytes.length - hello.afterName.length

end ClientHello

/-! ## The name list -/

namespace TlsClientHello

theorem hostName_eq_ok_iff {bs : List UInt8} {host : String} :
    hostName bs = .ok host ↔ bs = utf8 host := by
  rw [← fromUtf8_eq_some_iff, hostName]
  cases fromUtf8 bs with
  | none => simp
  | some name => simp

theorem nameVerdict_eq_none_iff {e : NameEntry} : nameVerdict e = none ↔ nameType e ≠ 0 := by
  simp [nameVerdict]

theorem type_eq_of_zero {e : NameEntry} (h : nameType e = 0) : e = (#v[0], e.2) := by
  have htype : e.1 = #v[0] := by
    apply Vector.ext
    intro i hi
    rw [Nat.lt_one_iff] at hi
    subst hi
    exact h
  rw [← htype]

/-- The loop over the names finds a host name exactly in the lists that have
one. -/
theorem namesAnswer_eq_host_iff {list : List UInt8} {host : String} :
    namesAnswer list = some (.ok host) ↔ ∃ l : HostList, l.bytes = list ∧ l.host = host := by
  -- what is left behind the entries is no host name
  have hend : ∀ rest, namesEnd rest ≠ some (.ok host) := by
    intro rest
    unfold namesEnd
    split_ifs
    · simp
    · simp
  have hfound : namesAnswer list = some (.ok host) ↔
      (nameEntry.readAll list).1.findSome? nameVerdict = some (some (.ok host)) := by
    unfold namesAnswer
    cases (nameEntry.readAll list).1.findSome? nameVerdict with
    | none => simp [hend]
    | some r => simp
  rw [hfound, Codec.findSome?_readAll_eq_some_iff]
  constructor
  · rintro ⟨others, e, rest, rfl, hothers, he⟩
    have hzero : nameType e = 0 := by
      by_contra hne
      rw [nameVerdict_eq_none_iff.mpr hne] at he
      cases he
    have hname : hostName e.2.data = .ok host := by
      simpa [nameVerdict, hzero] using he
    refine ⟨⟨others, fun o ho => nameVerdict_eq_none_iff.mp (hothers o ho), e.2, host,
      hostName_eq_ok_iff.mp hname, rest⟩, ?_, rfl⟩
    rw [HostList.bytes, ← type_eq_of_zero hzero]
  · rintro ⟨l, rfl, rfl⟩
    refine ⟨l.others, (#v[0], l.name), l.rest, rfl, ?_, ?_⟩
    · intro e he
      exact nameVerdict_eq_none_iff.mpr (l.others_ne e he)
    · have hhost := hostName_eq_ok_iff.mpr l.name_eq
      have hzero : nameType (#v[0], l.name) = 0 := rfl
      simp [nameVerdict, hzero, hhost]

/-- The loop passes on to the next extension exactly if all entries are of
other types and less than an entry is left. -/
theorem namesAnswer_eq_none_iff {list : List UInt8} :
    namesAnswer list = none ↔
      ∃ (names : List NameEntry) (rest : List UInt8), (∀ n ∈ names, nameType n ≠ 0) ∧
        rest.length < 3 ∧ list = names.flatMap nameEntry.write ++ rest := by
  -- a verdict ends the loop, so silence comes from the rest alone
  have hverdict : ∀ e r, nameVerdict e = some r → r ≠ none := by
    intro e r h
    unfold nameVerdict at h
    split_ifs at h
    cases h
    simp
  have hend : ∀ rest, namesEnd rest = none ↔ rest.length < 3 := by
    intro rest
    simp [namesEnd]
  have hsilent : namesAnswer list = none ↔
      (nameEntry.readAll list).1.findSome? nameVerdict = none ∧
        (nameEntry.readAll list).2.length < 3 := by
    unfold namesAnswer
    cases hfound : (nameEntry.readAll list).1.findSome? nameVerdict with
    | none => simp [hend]
    | some r =>
        obtain ⟨e, -, he⟩ := List.exists_of_findSome?_eq_some hfound
        simp [hverdict e r he]
  rw [hsilent]
  constructor
  · rintro ⟨hnone, hlen⟩
    obtain ⟨names, hlist, _, hnames⟩ :=
      nameEntry.findSome?_readAll_eq_none_iff.mp ⟨hnone, rfl⟩
    exact ⟨names, _, fun n hn => nameVerdict_eq_none_iff.mp (hnames n hn), hlen, hlist⟩
  · rintro ⟨names, rest, hnames, hlen, hlist⟩
    have hread : nameEntry.read rest = none := Codec.entry_read_eq_none_iff.mpr (by omega)
    obtain ⟨hnone, hrest⟩ := nameEntry.findSome?_readAll_eq_none_iff.mpr
      ⟨names, hlist, hread, fun n hn => nameVerdict_eq_none_iff.mpr (hnames n hn)⟩
    exact ⟨hnone, hrest ▸ hlen⟩

/-! ## The extension block -/

theorem value_eq_zero_iff {v : Vector UInt8 2} :
    Order.big.value v.toList = 0 ↔ v = serverNameType := by
  constructor
  · intro h
    have hbytes := Order.big_bytes_value v.toList
    rw [h, Vector.length_toList] at hbytes
    exact Vector.toList_inj.mp hbytes.symm
  · rintro rfl
    rfl

/-- Data of at least two bytes. -/
theorem exists_listLength {data : List UInt8} (h : 2 ≤ data.length) :
    ∃ listLength : Vector UInt8 2, data = listLength.toList ++ data.drop 2 := by
  have hsize : (data.take 2).toArray.size = 2 := by
    rw [List.size_toArray, List.length_take_of_le h]
  exact ⟨⟨(data.take 2).toArray, hsize⟩, (List.take_append_drop 2 data).symm⟩

theorem extensionVerdict_of_names {e : Extension} {listLength : Vector UInt8 2} {list : List UInt8}
    (htype : e.1 = serverNameType) (hdata : e.2.data = listLength.toList ++ list) :
    extensionVerdict e = namesAnswer list := by
  have hlist : e.2.data.drop 2 = list := by
    rw [hdata]
    exact List.drop_left' listLength.length_toList
  have hlen : ¬ e.2.data.length < 2 := by
    rw [hdata, List.length_append, listLength.length_toList]
    omega
  have hzero : ¬ Order.big.value e.1.toList ≠ 0 := by
    rw [ne_eq, not_not, value_eq_zero_iff, htype]
  rw [extensionVerdict, if_neg hzero, if_neg hlen, hlist]

/-- A `server_name` extension that is not malformed has a list of names, which
decides for it. -/
theorem exists_list_of_verdict {e : Extension} (htype : e.1 = serverNameType)
    (h : extensionVerdict e ≠ some (.error .invalidFormat)) :
    ∃ (listLength : Vector UInt8 2) (list : List UInt8),
      e.2.data = listLength.toList ++ list ∧ extensionVerdict e = namesAnswer list := by
  have hlen : 2 ≤ e.2.data.length := by
    have hzero : ¬ Order.big.value e.1.toList ≠ 0 := by
      rw [ne_eq, not_not, value_eq_zero_iff, htype]
    by_contra hshort
    exact h (by rw [extensionVerdict, if_neg hzero, if_pos (by omega)])
  obtain ⟨listLength, hdata⟩ := exists_listLength hlen
  exact ⟨listLength, _, hdata, extensionVerdict_of_names htype hdata⟩

/-- An extension decides nothing exactly if it is passed over. -/
theorem extensionVerdict_eq_none_iff {e : Extension} :
    extensionVerdict e = none ↔ PassedOver e := by
  -- the other types are not looked into
  by_cases htype : e.1 = serverNameType
  · constructor
    · intro h
      right
      obtain ⟨listLength, list, hdata, hanswer⟩ := exists_list_of_verdict htype (by simp [h])
      rw [hanswer, namesAnswer_eq_none_iff] at h
      obtain ⟨names, rest, hnames, hrest, hlist⟩ := h
      exact ⟨listLength, names, rest, hnames, hrest, by rw [← hlist]; exact hdata⟩
    · rintro (hne | ⟨listLength, names, rest, hnames, hrest, hdata⟩)
      · exact absurd htype hne
      · rw [extensionVerdict_of_names htype hdata, namesAnswer_eq_none_iff]
        exact ⟨names, rest, hnames, hrest, rfl⟩
  · have hzero : Order.big.value e.1.toList ≠ 0 := by
      rw [ne_eq, value_eq_zero_iff]
      exact htype
    rw [extensionVerdict, if_pos hzero]
    exact iff_of_true rfl (Or.inl htype)

/-- The loop over the extensions finds a host name exactly in the blocks that
have one. -/
theorem blockAnswer_eq_ok_iff {block : List UInt8} {host : String} :
    blockAnswer block = .ok host ↔ ∃ b : HostBlock, b.bytes = block ∧ b.list.host = host := by
  have hend : ∀ rest, extensionsRest rest ≠ .ok host := by
    intro rest
    unfold extensionsRest
    split_ifs
    · simp
    · simp
  have hfound : blockAnswer block = .ok host ↔
      (extension.readAll block).1.findSome? extensionVerdict = some (.ok host) := by
    unfold blockAnswer
    cases (extension.readAll block).1.findSome? extensionVerdict with
    | none => simp [hend]
    | some r => simp
  rw [hfound, Codec.findSome?_readAll_eq_some_iff]
  constructor
  · rintro ⟨passed, e, rest, rfl, hpassed, he⟩
    have htype : e.1 = serverNameType := by
      by_contra hne
      rw [extensionVerdict_eq_none_iff.mpr (Or.inl hne)] at he
      cases he
    obtain ⟨listLength, list, hdata, hanswer'⟩ := exists_list_of_verdict htype (by simp [he])
    rw [hanswer', namesAnswer_eq_host_iff] at he
    obtain ⟨l, hl, hhost⟩ := he
    rw [← hl] at hdata
    refine ⟨⟨passed, fun x hx => extensionVerdict_eq_none_iff.mp (hpassed x hx), listLength, l,
      hdata ▸ e.2.length_lt, rest⟩, ?_, hhost⟩
    have he2 : (⟨listLength.toList ++ l.bytes, hdata ▸ e.2.length_lt⟩ : Prefixed 2) = e.2 := by
      simp only [← hdata]
    simp only [HostBlock.bytes, HostBlock.data, he2, ← htype]
  · rintro ⟨b, rfl, rfl⟩
    refine ⟨b.passed, (serverNameType, b.data), b.rest, rfl, ?_, ?_⟩
    · intro e he
      exact extensionVerdict_eq_none_iff.mpr (b.passed_over e he)
    · have hnames : extensionVerdict (serverNameType, b.data) = namesAnswer b.list.bytes :=
        extensionVerdict_of_names rfl rfl
      rw [hnames, namesAnswer_eq_host_iff]
      exact ⟨b.list, rfl, rfl⟩

/-! ## The hello -/

section

variable {buffer : List UInt8}

/-- The fields of a fixed length. -/
theorem exists_front (hlen : 43 ≤ buffer.length) (hrecord : numberAt 1 buffer 0 = 22)
    (hone : numberAt 1 buffer 5 = 1) :
    ∃ (recordVersion : Vector UInt8 2) (handshakeLength : Vector UInt8 3)
      (version : Vector UInt8 2) (random : Vector UInt8 32),
      buffer = [22] ++ (recordVersion.toList ++ (Order.big.bytes 2 (numberAt 2 buffer 3) ++
        ([1] ++ (handshakeLength.toList ++ (version.toList ++
          (random.toList ++ buffer.drop 43)))))) := by
  have htype : buffer.drop 0 = [22] ++ buffer.drop 1 := by
    rw [drop_eq_number (n := 1) (by omega), hrecord]
    rfl
  have hmessage : buffer.drop 5 = [1] ++ buffer.drop 6 := by
    rw [drop_eq_number (n := 1) (by omega), hone]
    rfl
  have hlength : buffer.drop 3 = Order.big.bytes 2 (numberAt 2 buffer 3) ++ buffer.drop 5 :=
    drop_eq_number (by omega)
  obtain ⟨recordVersion, h1⟩ : ∃ v : Vector UInt8 2, buffer.drop 1 = v.toList ++ buffer.drop 3 :=
    exists_drop_eq_append (by omega)
  obtain ⟨handshakeLength, h6⟩ :
      ∃ v : Vector UInt8 3, buffer.drop 6 = v.toList ++ buffer.drop 9 :=
    exists_drop_eq_append (by omega)
  obtain ⟨version, h9⟩ : ∃ v : Vector UInt8 2, buffer.drop 9 = v.toList ++ buffer.drop 11 :=
    exists_drop_eq_append (by omega)
  obtain ⟨random, h11⟩ : ∃ v : Vector UInt8 32, buffer.drop 11 = v.toList ++ buffer.drop 43 :=
    exists_drop_eq_append (by omega)
  refine ⟨recordVersion, handshakeLength, version, random, ?_⟩
  rw [← h11, ← h9, ← h6, ← hmessage, ← hlength, ← h1, ← htype, List.drop_zero]

/-- The block is what stands behind its length. -/
theorem block_of_drop {extensions : Prefixed 2} {rest : List UInt8}
    (h : buffer.drop (extensionsAt buffer) = extensions.bytes ++ rest) :
    block buffer = extensions.data := by
  rw [block, List.drop_take, drop_data h, extensionsEnd, Nat.add_sub_cancel_left,
    numberAt_of_drop h, List.take_left]

/-- The fields behind their lengths. -/
theorem exists_vectors (hend : extensionsEnd buffer ≤ buffer.length) :
    ∃ (sessionId : Prefixed 1) (cipherSuites : Prefixed 2) (compressionMethods : Prefixed 1)
      (extensions : Prefixed 2), extensions.data = block buffer ∧
      buffer.drop 43 = sessionId.bytes ++ (cipherSuites.bytes ++ (compressionMethods.bytes ++
        (extensions.bytes ++ buffer.drop (extensionsEnd buffer)))) := by
  obtain ⟨hciphers, hcompression, hextensions, hblock⟩ := @offsets_le buffer
  obtain ⟨sessionId, _, h43⟩ : ∃ v : Prefixed 1, v.data.length = numberAt 1 buffer 43 ∧
      buffer.drop 43 = v.bytes ++ buffer.drop (cipherSuitesAt buffer) :=
    drop_eq_prefixed (by unfold cipherSuitesAt at *; omega)
  obtain ⟨cipherSuites, _, hcs⟩ : ∃ v : Prefixed 2,
      v.data.length = numberAt 2 buffer (cipherSuitesAt buffer) ∧
        buffer.drop (cipherSuitesAt buffer) = v.bytes ++ buffer.drop (compressionAt buffer) :=
    drop_eq_prefixed (by unfold compressionAt at *; omega)
  obtain ⟨compressionMethods, _, hcm⟩ : ∃ v : Prefixed 1,
      v.data.length = numberAt 1 buffer (compressionAt buffer) ∧
        buffer.drop (compressionAt buffer) = v.bytes ++ buffer.drop (extensionsAt buffer) :=
    drop_eq_prefixed (by unfold extensionsAt at *; omega)
  obtain ⟨extensions, hlen, hex⟩ : ∃ v : Prefixed 2,
      v.data.length = numberAt 2 buffer (extensionsAt buffer) ∧
        buffer.drop (extensionsAt buffer) = v.bytes ++ buffer.drop (extensionsEnd buffer) :=
    drop_eq_prefixed hend
  refine ⟨sessionId, cipherSuites, compressionMethods, extensions, (block_of_drop hex).symm, ?_⟩
  rw [h43, hcs, hcm, hex]

/-- The fields of a hello whose answer is a host name. -/
theorem exists_hello {host : String} (hrecord : numberAt 1 buffer 0 = 22)
    (hwhole : 5 + numberAt 2 buffer 3 ≤ buffer.length)
    (h : helloAnswer buffer buffer.length = .ok host) :
    ∃ hello : ClientHello, hello.RecordFits ∧ hello.bytes = buffer ∧ hello.serverName = host := by
  obtain ⟨hone, hend, hanswer⟩ := helloAnswer_eq_ok_iff.mp h
  obtain ⟨b, hb, hhost⟩ := blockAnswer_eq_ok_iff.mp hanswer
  obtain ⟨hciphers, hcompression, hextensions, hblock⟩ := @offsets_le buffer
  obtain ⟨recordVersion, handshakeLength, version, random, hfront⟩ :=
    exists_front (by omega) hrecord hone
  obtain ⟨sessionId, cipherSuites, compressionMethods, extensions, hdata, hvectors⟩ :=
    exists_vectors hend
  have hlt : b.bytes.length < 256 ^ 2 := by
    rw [hb, ← hdata]
    exact extensions.length_lt
  have hext : extensions = ⟨b.bytes, hlt⟩ := by
    cases extensions
    simp only [hb, ← hdata]
  rw [hext] at hvectors
  have hlengths := congrArg List.length hfront
  simp only [List.length_append, Vector.length_toList, Order.big.length_bytes,
    List.length_singleton] at hlengths
  -- the fields in the order of the record
  refine ⟨⟨recordVersion, numberAt 2 buffer 3, numberAt_lt (by omega), handshakeLength, version,
    random, sessionId, cipherSuites, compressionMethods, b, hlt,
    buffer.drop (extensionsEnd buffer)⟩, ?_, ?_, hhost⟩
  · simp only [ClientHello.RecordFits, ClientHello.message, ClientHello.vectors,
      ClientHello.extensions, ← hvectors, List.length_append, Vector.length_toList,
      List.length_singleton]
    omega
  · simp only [ClientHello.bytes, ClientHello.message, ClientHello.vectors,
      ClientHello.extensions, ← hvectors]
    exact hfront.symm

/-! ## What a hello says -/

section

variable (hello : ClientHello)

theorem drop_bytes : hello.bytes.drop 43 = hello.vectors := by
  have hlen : ([22] ++ (hello.recordVersion.toList ++ (Order.big.bytes 2 hello.recordLength ++
      ([1] ++ (hello.handshakeLength.toList ++ (hello.version.toList ++
        hello.random.toList))))) : List UInt8).length = 43 := by
    simp [Order.big.length_bytes]
  have h : (_ ++ hello.vectors).drop 43 = hello.vectors := List.drop_left' hlen
  simpa only [ClientHello.bytes, ClientHello.message, List.append_assoc] using h

theorem recordType_bytes : numberAt 1 hello.bytes 0 = 22 := rfl

theorem recordLength_bytes : numberAt 2 hello.bytes 3 = hello.recordLength := by
  have hpre : ([22] ++ hello.recordVersion.toList : List UInt8).length = 3 := by simp
  rw [ClientHello.bytes, ← List.append_assoc,
    numberAt_of_append hpre (Order.big.length_bytes 2 hello.recordLength)]
  exact Order.big.value_bytes 2 hello.recordLength hello.recordLength_lt

theorem drop_header : hello.bytes.drop 5 = hello.message := by
  have hpre : ([22] ++ (hello.recordVersion.toList ++ Order.big.bytes 2 hello.recordLength) :
      List UInt8).length = 5 := by
    simp [Order.big.length_bytes]
  have h : (_ ++ hello.message).drop 5 = hello.message := List.drop_left' hpre
  simpa only [ClientHello.bytes, List.append_assoc] using h

theorem handshakeType_bytes : numberAt 1 hello.bytes 5 = 1 := by
  rw [← Nat.add_zero 5, ← numberAt_drop, drop_header]
  rfl

/-- Each vector stands where the ones before it end. -/
theorem drop_extensionsAt :
    hello.bytes.drop (extensionsAt hello.bytes) = hello.extensions.bytes ++ hello.trailing := by
  have hciphers : hello.bytes.drop (cipherSuitesAt hello.bytes) = hello.cipherSuites.bytes ++
      (hello.compressionMethods.bytes ++ (hello.extensions.bytes ++ hello.trailing)) :=
    drop_behind (drop_bytes hello)
  have hcompression : hello.bytes.drop (compressionAt hello.bytes) =
      hello.compressionMethods.bytes ++ (hello.extensions.bytes ++ hello.trailing) :=
    drop_behind hciphers
  exact drop_behind hcompression

theorem block_bytes : block hello.bytes = hello.block.bytes :=
  block_of_drop (drop_extensionsAt hello)

/-- What is behind the extension block is not looked at. -/
theorem extensionsEnd_bytes :
    extensionsEnd hello.bytes + hello.trailing.length = hello.bytes.length := by
  have hlen := congrArg List.length (drop_extensionsAt hello)
  have hnum : numberAt 2 hello.bytes (extensionsAt hello.bytes) = hello.extensions.data.length :=
    numberAt_of_drop (drop_extensionsAt hello)
  rw [List.length_drop, List.length_append, Prefixed.length_bytes] at hlen
  rw [extensionsEnd, hnum]
  omega

theorem blockAnswer_bytes : blockAnswer (block hello.bytes) = .ok hello.serverName :=
  blockAnswer_eq_ok_iff.mpr ⟨hello.block, (block_bytes hello).symm, rfl⟩

end

/-! ## What is accepted -/

/-- A record that is there in full and answered with a name is a hello with
that name. -/
theorem exists_hello_of_parse {host : String} (h : parse buffer = .ok (.ok { sni := host })) :
    ∃ hello : ClientHello, hello.RecordFits ∧ hello.bytes = buffer ∧ hello.serverName = host := by
  have hrecord : ¬ (buffer.length < 5 ∨ numberAt 1 buffer 0 ≠ 22 ∨
      buffer.length < 5 + numberAt 2 buffer 3) := by
    intro hno
    obtain ⟨e, he⟩ := parse_of_no_record hno
    rw [he] at h
    cases h
  push Not at hrecord
  obtain ⟨hlen, htype, hwhole⟩ := hrecord
  have hlong : 6 ≤ buffer.length := by
    by_contra hshort
    obtain ⟨major, minor, rfl⟩ := eq_empty_record (by omega) htype (by omega)
    rw [parse_empty_record] at h
    cases h
  rw [parse_of_record hlong htype hwhole] at h
  have hanswer : helloAnswer buffer buffer.length = .ok host := answer_inj.mp h
  exact exists_hello htype hwhole hanswer

/-- A hello in a record that is there in full is answered with its name. -/
theorem parse_bytes {hello : ClientHello} (hfits : hello.RecordFits) :
    parse hello.bytes = .ok (.ok { sni := hello.serverName }) := by
  have hend := extensionsEnd_bytes hello
  obtain ⟨hciphers, hcompression, hextensions, hblock⟩ := @offsets_le hello.bytes
  have hmessage := congrArg List.length (drop_header hello)
  rw [List.length_drop] at hmessage
  have hwhole : 5 + numberAt 2 hello.bytes 3 ≤ hello.bytes.length := by
    rw [recordLength_bytes]
    unfold ClientHello.RecordFits at hfits
    omega
  have hanswer : helloAnswer hello.bytes hello.bytes.length = .ok hello.serverName :=
    helloAnswer_eq_ok_iff.mpr ⟨handshakeType_bytes hello, by omega, blockAnswer_bytes hello⟩
  rw [parse_of_record (by omega) (recordType_bytes hello) hwhole, hanswer]
  rfl

end

end TlsClientHello

/-- `TlsClientHello::parse` accepts the buffers with the fields of a hello that
names a host, and answers with that name. -/
theorem clientHello_ok_iff (buffer : List UInt8) (host : String) :
    TlsClientHello.parse buffer = .ok (.ok { sni := host }) ↔
      ∃ hello : ClientHello,
        hello.RecordFits ∧ hello.bytes = buffer ∧ hello.serverName = host := by
  constructor
  · intro h
    exact TlsClientHello.exists_hello_of_parse h
  · rintro ⟨hello, hfits, rfl, rfl⟩
    exact TlsClientHello.parse_bytes hfits

end NetZer
