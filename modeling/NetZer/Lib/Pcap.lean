import NetZer.Lib.Bytes

/-! # PCAP files

The capture file format as a reader sees it: a file header of 24 bytes whose
magic number tells the byte order, then records, each a header of 16 bytes and
as many bytes of data as that says. Reading stops where no complete record is
left. The snapshot length is what the writer declares; a reader takes the
length of a record from its header.
-/

namespace Pcap

open Bytes

/-- A record, with the fields of its header. -/
structure Record where
  seconds : Nat
  micros : Nat
  included : Nat
  original : Nat
  data : List UInt8
deriving DecidableEq, Repr

/-- What there is in a file: the fields of its header, the records, and the
bytes after the last complete one. -/
structure Contents where
  major : Nat
  minor : Nat
  snaplen : Nat
  linktype : Nat
  records : List Record
  rest : List UInt8
deriving DecidableEq, Repr

def magic : Nat := 0xa1b2c3d4

/-- The order in which the first four bytes are the magic number. -/
def order (file : List UInt8) : Option Order :=
  if Order.little.value (file.take 4) = magic then some .little
  else if Order.big.value (file.take 4) = magic then some .big
  else none

/-- The number in the `n` bytes at offset `i`. -/
def number (o : Order) (bytes : List UInt8) (i n : Nat) : Nat :=
  o.value ((bytes.drop i).take n)

/-- The first record and what follows it. -/
def readRecord (o : Order) (bytes : List UInt8) : Option (Record × List UInt8) :=
  let included := number o bytes 8 4
  if 16 ≤ bytes.length ∧ 16 + included ≤ bytes.length then
    some
      ({ seconds := number o bytes 0 4
         micros := number o bytes 4 4
         included := included
         original := number o bytes 12 4
         data := (bytes.drop 16).take included },
        bytes.drop (16 + included))
  else none

/-- At most `fuel` records, and what follows them. -/
def readRecords (o : Order) : Nat → List UInt8 → List Record × List UInt8
  | 0, bytes => ([], bytes)
  | fuel + 1, bytes =>
      match readRecord o bytes with
      | none => ([], bytes)
      | some (r, rest) =>
          let (rs, rest') := readRecords o fuel rest
          (r :: rs, rest')

/-- Read a file. Every record takes bytes, so there are no more records than
bytes. -/
def read (file : List UInt8) : Option Contents :=
  if file.length < 24 then none
  else
    match order file with
    | none => none
    | some o =>
        let (records, rest) := readRecords o file.length (file.drop 24)
        some
          { major := number o file 4 2
            minor := number o file 6 2
            snaplen := number o file 16 4
            linktype := number o file 20 4
            records := records
            rest := rest }

/-! ## Writing -/

def Record.header (o : Order) (r : Record) : List UInt8 :=
  o.bytes 4 r.seconds ++ (o.bytes 4 r.micros ++ (o.bytes 4 r.included ++ o.bytes 4 r.original))

def Record.bytes (o : Order) (r : Record) : List UInt8 :=
  r.header o ++ r.data

/-- The fields fit their places, and the included length is that of the data. -/
structure Record.WellFormed (r : Record) : Prop where
  seconds : r.seconds < 4294967296
  micros : r.micros < 4294967296
  included : r.included = r.data.length
  original : r.original < 4294967296
  length : r.data.length < 4294967296

def fileHeader (o : Order) (major minor snaplen linktype : Nat) : List UInt8 :=
  o.bytes 4 magic ++ (o.bytes 2 major ++ (o.bytes 2 minor ++ (List.replicate 8 0 ++
    (o.bytes 4 snaplen ++ o.bytes 4 linktype))))

section

variable {o : Order} {n v : Nat} {rest : List UInt8} {r : Record}

/-! ## Reading what was written -/

/-- A number stands where it was written. -/
theorem number_here (hv : v < 256 ^ n) (rest : List UInt8) :
    number o (o.bytes n v ++ rest) 0 n = v := by
  have htake : (o.bytes n v ++ rest).take n = o.bytes n v := List.take_left' (o.length_bytes n v)
  rw [number, List.drop_zero, htake, o.value_bytes n v hv]

/-- What comes before it is passed over. -/
theorem number_skip {pre : List UInt8} {i : Nat} (hpre : pre.length = i) (bytes : List UInt8)
    (j n : Nat) : number o (pre ++ bytes) (i + j) n = number o bytes j n := by
  have hdrop : (pre ++ bytes).drop (i + j) = bytes.drop j := by
    rw [← List.drop_drop, List.drop_left' hpre]
  rw [number, number, hdrop]

/-- Only the first bytes matter. -/
theorem number_take {bytes : List UInt8} {i k : Nat} (h : i + n ≤ k) :
    number o (bytes.take k) i n = number o bytes i n := by
  have htake : ((bytes.take k).drop i).take n = (bytes.drop i).take n := by
    rw [List.drop_take, List.take_take, Nat.min_eq_left (by omega)]
  rw [number, number, htake]

theorem Record.length_header (o : Order) (r : Record) : (r.header o).length = 16 := by
  simp [header, o.length_bytes]

theorem Record.length_bytes (o : Order) (r : Record) :
    (r.bytes o).length = 16 + r.data.length := by
  rw [bytes, List.length_append, r.length_header]

/-- The four numbers of a record header. -/
theorem Record.numbers (hr : r.WellFormed) (rest : List UInt8) :
    number o (r.header o ++ rest) 0 4 = r.seconds ∧ number o (r.header o ++ rest) 4 4 = r.micros ∧
      number o (r.header o ++ rest) 8 4 = r.data.length ∧
      number o (r.header o ++ rest) 12 4 = r.original := by
  have h4 : ∀ v, (o.bytes 4 v).length = 4 := fun v => o.length_bytes 4 v
  simp only [header, List.append_assoc]
  refine ⟨number_here hr.seconds _, ?_, ?_, ?_⟩
  · rw [number_skip (h4 _) _ 0 4, number_here hr.micros]
  · rw [number_skip (h4 _) _ 4 4, number_skip (h4 _) _ 0 4, hr.included, number_here hr.length]
  · rw [number_skip (h4 _) _ 8 4, number_skip (h4 _) _ 4 4, number_skip (h4 _) _ 0 4,
      number_here hr.original]

theorem readRecord_bytes (hr : r.WellFormed) (rest : List UInt8) :
    readRecord o (r.bytes o ++ rest) = some (r, rest) := by
  rcases r.numbers (o := o) hr (r.data ++ rest) with ⟨hseconds, hmicros, hincluded, horiginal⟩
  have hlen := r.length_header o
  have hdata : (r.header o ++ (r.data ++ rest)).drop 16 = r.data ++ rest := List.drop_left' hlen
  have hrest : (r.header o ++ (r.data ++ rest)).drop (16 + r.data.length) = rest := by
    rw [← List.drop_drop, hdata, List.drop_left]
  have hroom : 16 ≤ (r.header o ++ (r.data ++ rest)).length ∧
      16 + r.data.length ≤ (r.header o ++ (r.data ++ rest)).length := by
    simp only [List.length_append, hlen]
    omega
  simp only [Record.bytes, List.append_assoc, readRecord, hseconds, hmicros, hincluded, horiginal,
    hdata, hrest, hroom, List.take_left, and_self, if_true, Option.some.injEq, Prod.mk.injEq,
    and_true]
  rw [← hr.included]

/-- Part of a record is none. -/
theorem readRecord_part (hr : r.WellFormed) {k : Nat} (hk : k < (r.bytes o).length) :
    readRecord o ((r.bytes o).take k) = none := by
  rw [r.length_bytes] at hk
  have hlen : ((r.bytes o).take k).length ≤ k := List.length_take_le k _
  unfold readRecord
  apply if_neg
  rintro ⟨hheader, hdata⟩
  -- the header is all there, so it tells how much is missing
  have hincluded : number o ((r.bytes o).take k) 8 4 = r.data.length := by
    rw [number_take (by omega)]
    exact (r.numbers hr r.data).2.2.1
  rw [hincluded] at hdata
  omega

/-- Records with what is no record behind them are read to the last. -/
theorem readRecords_bytes {rs : List Record} (hrs : ∀ r ∈ rs, r.WellFormed)
    (hrest : readRecord o rest = none) {fuel : Nat} (hfuel : rs.length ≤ fuel) :
    readRecords o fuel (rs.flatMap (Record.bytes o) ++ rest) = (rs, rest) := by
  induction rs generalizing fuel with
  | nil =>
      cases fuel with
      | zero => rfl
      | succ fuel => simp only [List.flatMap_nil, List.nil_append, readRecords, hrest]
  | cons r rs ih =>
      cases fuel with
      | zero => simp at hfuel
      | succ fuel =>
          have hr := hrs r (by simp)
          have hrest' := ih (fun r' hr' => hrs r' (by simp [hr'])) (Nat.le_of_succ_le_succ hfuel)
          simp only [List.flatMap_cons, List.append_assoc, readRecords, readRecord_bytes hr, hrest']

theorem length_le_flatMap_bytes (o : Order) (rs : List Record) :
    rs.length ≤ (rs.flatMap (Record.bytes o)).length := by
  induction rs with
  | nil => exact Nat.le_refl 0
  | cons r rs ih =>
      have hr := r.length_bytes o
      rw [List.flatMap_cons, List.length_append, List.length_cons]
      omega

end

/-- The magic number tells the order it was written in. -/
theorem order_of_magic {o : Order} (ho : o = .little ∨ o = .big) (rest : List UInt8) :
    order (o.bytes 4 magic ++ rest) = some o := by
  have htake : (o.bytes 4 magic ++ rest).take 4 = o.bytes 4 magic :=
    List.take_left' (o.length_bytes 4 magic)
  rw [order, htake]
  rcases ho with rfl | rfl
  · rw [if_pos (by decide)]
  · rw [if_neg (by decide), if_pos (by decide)]

/-- The numbers of a file header, each below the bound of its place. -/
structure HeaderFits (major minor snaplen linktype : Nat) : Prop where
  major : major < 65536
  minor : minor < 65536
  snaplen : snaplen < 4294967296
  linktype : linktype < 4294967296

section

variable {o : Order} {major minor snaplen linktype : Nat}

theorem length_fileHeader : (fileHeader o major minor snaplen linktype).length = 24 := by
  simp [fileHeader, o.length_bytes]

/-- The numbers of a file header, eight zero bytes between them. -/
theorem fileHeader_numbers (hfits : HeaderFits major minor snaplen linktype)
    (body : List UInt8) :
    number o (fileHeader o major minor snaplen linktype ++ body) 4 2 = major ∧
      number o (fileHeader o major minor snaplen linktype ++ body) 6 2 = minor ∧
      number o (fileHeader o major minor snaplen linktype ++ body) 16 4 = snaplen ∧
      number o (fileHeader o major minor snaplen linktype ++ body) 20 4 = linktype := by
  have h2 : ∀ v, (o.bytes 2 v).length = 2 := fun v => o.length_bytes 2 v
  have h4 : ∀ v, (o.bytes 4 v).length = 4 := fun v => o.length_bytes 4 v
  have h8 : (List.replicate 8 (0 : UInt8)).length = 8 := rfl
  simp only [fileHeader, List.append_assoc]
  refine ⟨?_, ?_, ?_, ?_⟩
  · rw [number_skip (h4 _) _ 0 2, number_here hfits.major]
  · rw [number_skip (h4 _) _ 2 2, number_skip (h2 _) _ 0 2, number_here hfits.minor]
  · rw [number_skip (h4 _) _ 12 4, number_skip (h2 _) _ 10 4, number_skip (h2 _) _ 8 4,
      number_skip h8 _ 0 4, number_here hfits.snaplen]
  · rw [number_skip (h4 _) _ 16 4, number_skip (h2 _) _ 14 4, number_skip (h2 _) _ 12 4,
      number_skip h8 _ 4 4, number_skip (h4 _) _ 0 4, number_here hfits.linktype]

/-- A file is read as it was written: a header, records, and what is no
record. -/
theorem read_file (ho : o = .little ∨ o = .big)
    (hfits : HeaderFits major minor snaplen linktype) {rs : List Record}
    (hrs : ∀ r ∈ rs, r.WellFormed) {rest : List UInt8} (hrest : readRecord o rest = none) :
    read (fileHeader o major minor snaplen linktype ++ (rs.flatMap (Record.bytes o) ++ rest)) =
      some { major, minor, snaplen, linktype, records := rs, rest } := by
  have hcount := length_le_flatMap_bytes o rs
  have hfuel : rs.length ≤ (fileHeader o major minor snaplen linktype ++
      (rs.flatMap (Record.bytes o) ++ rest)).length := by
    rw [List.length_append, List.length_append]
    omega
  have hrecords := readRecords_bytes hrs hrest hfuel
  have hlen : ¬ (fileHeader o major minor snaplen linktype ++
      (rs.flatMap (Record.bytes o) ++ rest)).length < 24 := by
    rw [List.length_append, length_fileHeader]
    omega
  have horder : order (fileHeader o major minor snaplen linktype ++
      (rs.flatMap (Record.bytes o) ++ rest)) = some o := by
    rw [fileHeader, List.append_assoc]
    exact order_of_magic ho _
  rcases fileHeader_numbers (o := o) hfits (rs.flatMap (Record.bytes o) ++ rest) with
    ⟨hmajor, hminor, hsnaplen, hlinktype⟩
  simp only [read, if_neg hlen, horder, List.drop_left' length_fileHeader, hrecords, hmajor,
    hminor, hsnaplen, hlinktype]

end

end Pcap
