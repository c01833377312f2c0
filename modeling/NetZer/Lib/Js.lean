import Mathlib.Data.List.DropRight
import NetZer.Lib.Text

/-! # Strings, numbers and objects of JavaScript

The functions of its standard library that scripts on pages use most, on texts
of whole characters. An object that is used as a table has more keys than were
put into it: those every object inherits.
-/

namespace Js

open Text

/-! ## Strings -/

/-- White space and line ends. -/
def isSpaceCode (n : Nat) : Bool :=
  (9 ≤ n && n ≤ 13) || n == 0x20 || n == 0xa0 || n == 0x1680 || (0x2000 ≤ n && n ≤ 0x200a) ||
    n == 0x2028 || n == 0x2029 || n == 0x202f || n == 0x205f || n == 0x3000 || n == 0xfeff

def isSpace (c : Char) : Bool :=
  isSpaceCode c.toNat

/-- `s.trim()`. -/
def trim (s : String) : String :=
  String.ofList ((s.toList.dropWhile isSpace).rdropWhile isSpace)

/-- `s.startsWith(pat)`. -/
def startsWith (s pat : String) : Bool :=
  pat.toList.isPrefixOf s.toList

/-- `s.includes(pat)`. -/
def includes (s pat : String) : Bool :=
  s.toList.tails.any pat.toList.isPrefixOf

/-- `s.substring(n)`. -/
def substring (s : String) (n : Nat) : String :=
  String.ofList (s.toList.drop n)

/-- The parts between the separators: `skip` characters of one are still to be
passed over, and `part` is what has been read of a part. -/
def splitGo (sep : List Char) : Nat → List Char → List Char → List (List Char)
  | _, part, [] => [part]
  | skip + 1, part, _ :: cs => splitGo sep skip part cs
  | 0, part, c :: cs =>
      if sep.isPrefixOf (c :: cs) then part :: splitGo sep (sep.length - 1) [] cs
      else splitGo sep 0 (part ++ [c]) cs

/-- `s.split(sep)`, for a separator that is not empty. -/
def split (s sep : String) : List String :=
  (splitGo sep.toList 0 [] s.toList).map String.ofList

example : split "a::b:c" "::" = ["a", "b:c"] ∧ split "" ":" = [""] := by decide

/-- The code units of UTF-16. -/
def units (s : String) : List Nat :=
  s.toList.flatMap fun c =>
    let n := c.toNat
    if n < 0x10000 then [n]
    else [0xd800 + (n - 0x10000) / 0x400, 0xdc00 + (n - 0x10000) % 0x400]

/-! ## Numbers -/

def hexDigit (u : Nat) : Option Nat :=
  if 0x30 ≤ u ∧ u ≤ 0x39 then some (u - 0x30)
  else if 0x61 ≤ u ∧ u ≤ 0x66 then some (u - 0x61 + 10)
  else if 0x41 ≤ u ∧ u ≤ 0x46 then some (u - 0x41 + 10)
  else none

/-- A sign: is it a minus, and what follows. -/
def sign : List Nat → Bool × List Nat
  | 0x2d :: us => (true, us)
  | 0x2b :: us => (false, us)
  | us => (false, us)

/-- The prefix `0x`. -/
def stripHexPrefix : List Nat → List Nat
  | 0x30 :: 0x78 :: us => us
  | 0x30 :: 0x58 :: us => us
  | us => us

/-- `parseInt(s, 16)`, with `none` for `NaN`. -/
def parseInt16 (us : List Nat) : Option Int :=
  let (minus, us) := sign (us.dropWhile isSpaceCode)
  let digits := ((stripHexPrefix us).map hexDigit).takeWhile Option.isSome
  let value : Int := digits.reduceOption.foldl (fun n d => 16 * n + d) 0
  if digits = [] then none else some (if minus then -value else value)

example : (["3c", "4z", "zz", " 7", "-f", "0x", ""].map fun s => parseInt16 (units s)) =
    [some 60, some 4, none, some 7, some (-15), none, none] := by decide

/-- `n.toString(16)`. -/
def toString16 : Option Int → String
  | none => "NaN"
  | some (.ofNat n) => String.ofList (Nat.toDigits 16 n)
  | some (.negSucc n) => String.ofList ('-' :: Nat.toDigits 16 (n + 1))

/-- `s.padStart(n, c)`, for a text of ASCII characters. -/
def padStart (s : String) (n : Nat) (c : Char) : String :=
  String.ofList (s.toList.leftpad n c)

/-! ## Tables -/

/-- What a table of counts holds for a key: a number, or a text where a number
was added to something that is none. -/
inductive Count where
  | number (n : Nat)
  | text (s : String)
deriving DecidableEq, Repr

def Count.isNumber : Count → Bool
  | .number _ => true
  | .text _ => false

/-- The number, where it is one. -/
def Count.toNat : Count → Nat
  | .number n => n
  | .text _ => 0

/-- From here on adding one to a number changes nothing. -/
def maxCount : Nat := 2 ^ 53

/-- `(x || 0) + 1`, with `none` for `undefined`. -/
def addOne : Option Count → Count
  | none => .number 1
  | some (.number n) => .number (if n < maxCount then n + 1 else n)
  | some (.text s) => if s = "" then .number 1 else .text (s ++ "1")

/-- An object, by its own properties in the order they were created in. -/
structure Table where
  entries : List (String × Count)
deriving DecidableEq, Repr

/-- The methods of `Object.prototype`. -/
def objectMethods : List String :=
  ["constructor", "__defineGetter__", "__defineSetter__", "hasOwnProperty", "__lookupGetter__",
    "__lookupSetter__", "isPrototypeOf", "propertyIsEnumerable", "toString", "valueOf",
    "toLocaleString"]

/-- The keys every object has. -/
def isInherited (key : String) : Bool :=
  objectMethods.contains key || key == "__proto__"

namespace Table

def empty : Table :=
  { entries := [] }

/-- An own property. -/
def get? (t : Table) (key : String) : Option Count :=
  t.entries.lookup key

/-- What an inherited property is as a text, when something is added to it;
`nativeText` is the source text of a method. -/
def inherited (nativeText : String → String) (key : String) : Option Count :=
  if objectMethods.contains key then some (.text (nativeText key))
  else if key = "__proto__" then some (.text "[object Object]")
  else none

/-- Change the property of a key, or create it. -/
def setEntries (key : String) (v : Count) : List (String × Count) → List (String × Count)
  | [] => [(key, v)]
  | (k, w) :: es => if k = key then (k, v) :: es else (k, w) :: setEntries key v es

/-- `t[key] = (t[key] || 0) + 1`. Assigning a text or a number to `__proto__`
does nothing. -/
def bump (nativeText : String → String) (t : Table) (key : String) : Table :=
  if key = "__proto__" then t
  else
    { entries := setEntries key (addOne ((t.get? key).or (inherited nativeText key))) t.entries }

/-- A key that is the decimal form of an array index. -/
def arrayIndex (key : String) : Option Nat :=
  let n := Nat.ofDigitChars 10 key.toList 0
  if toString n = key ∧ n < 2 ^ 32 - 1 then some n else none

/-- The properties in the order of `for … in`: array indices from the smallest
on, then all others as they were created. -/
def forIn (t : Table) : List (String × Count) :=
  (t.entries.filter fun e => (arrayIndex e.1).isSome).mergeSort
      (fun e e' => decide ((arrayIndex e.1).getD 0 ≤ (arrayIndex e'.1).getD 0)) ++
    t.entries.filter fun e => (arrayIndex e.1).isNone

end Table

/-! ## Where the characters of a part come from -/

section

variable {s sep part pat : String} {bad : Char → Bool}

/-- A text that starts with another is it and the rest. -/
theorem append_substring (h : startsWith s pat = true) :
    pat ++ substring s pat.length = s := by
  obtain ⟨rest, hrest⟩ := List.isPrefixOf_iff_prefix.mp h
  apply String.toList_injective
  rw [String.toList_append, substring, String.toList_ofList, ← hrest, ← String.length_toList,
    List.drop_left]

theorem startsWith_append (pat s : String) : startsWith (pat ++ s) pat = true := by
  rw [startsWith, String.toList_append, List.isPrefixOf_iff_prefix]
  exact List.prefix_append _ _

theorem substring_append (pat s : String) : substring (pat ++ s) pat.length = s := by
  rw [substring, String.toList_append, ← String.length_toList, List.drop_left, String.ofList_toList]

theorem avoids_substring {n : Nat} (h : Avoids bad s) : Avoids bad (substring s n) := by
  rw [substring, avoids_ofList]
  intro c hc
  exact h c (List.mem_of_mem_drop hc)

theorem avoids_trim (h : Avoids bad s) : Avoids bad (trim s) := by
  rw [trim, avoids_ofList]
  intro c hc
  have hmem := (List.rdropWhile_prefix isSpace _).subset hc
  exact h c ((List.dropWhile_suffix isSpace).subset hmem)

theorem avoids_padStart {n : Nat} {c : Char} (hc : bad c = false) (h : Avoids bad s) :
    Avoids bad (padStart s n c) := by
  rw [padStart, avoids_ofList, List.leftpad]
  intro d hd
  obtain hd | hd := List.mem_append.mp hd
  · rw [List.eq_of_mem_replicate hd]
    exact hc
  · exact h d hd

/-- A number in hex is made of digits and a minus, or says that it is none. -/
theorem avoids_toString16 (hdigit : ∀ d < 16, bad d.digitChar = false) (hminus : bad '-' = false)
    (hnan : Avoids bad "NaN") (x : Option Int) : Avoids bad (toString16 x) := by
  have hdigits : ∀ n, ∀ c ∈ Nat.toDigits 16 n, bad c = false := by
    intro n c hc
    obtain ⟨d, hd, rfl⟩ := digit_of_mem_toDigits (by decide) hc
    exact hdigit d hd
  unfold toString16
  split
  · exact hnan
  · rw [avoids_ofList]
    exact hdigits _
  · rw [avoids_ofList, List.forall_mem_cons]
    exact ⟨hminus, hdigits _⟩

theorem splitGo_ne_nil (sep : List Char) (skip : Nat) (part cs : List Char) :
    splitGo sep skip part cs ≠ [] := by
  induction skip, part, cs using splitGo.induct sep with
  | case1 => simp [splitGo]
  | case2 skip part c cs ih => rwa [splitGo]
  | case3 part c cs hsep ih =>
      rw [splitGo, if_pos hsep]
      exact List.cons_ne_nil _ _
  | case4 part c cs hsep ih => rwa [splitGo, if_neg hsep]

theorem split_ne_nil (s sep : String) : split s sep ≠ [] := by
  rw [split, ne_eq, List.map_eq_nil_iff]
  exact splitGo_ne_nil _ _ _ _

/-- A part has no characters but those of the text. -/
theorem mem_of_splitGo {sep : List Char} {skip : Nat} {part cs : List Char} :
    ∀ p ∈ splitGo sep skip part cs, ∀ c ∈ p, c ∈ part ∨ c ∈ cs := by
  induction skip, part, cs using splitGo.induct sep with
  | case1 skip part =>
      intro p hp c hc
      rw [splitGo, List.mem_singleton] at hp
      exact Or.inl (hp ▸ hc)
  | case2 skip part d cs ih =>
      intro p hp c hc
      rw [splitGo] at hp
      exact (ih p hp c hc).imp_right (List.mem_cons_of_mem d)
  | case3 part d cs hsep ih =>
      intro p hp c hc
      rw [splitGo, if_pos hsep, List.mem_cons] at hp
      obtain rfl | hp := hp
      · exact Or.inl hc
      · obtain hnil | hcs := ih p hp c hc
        · cases hnil
        · exact Or.inr (List.mem_cons_of_mem d hcs)
  | case4 part d cs hsep ih =>
      intro p hp c hc
      rw [splitGo, if_neg hsep] at hp
      have hmem := ih p hp c hc
      rw [List.mem_append, List.mem_singleton] at hmem
      rw [List.mem_cons]
      tauto

/-- Nothing is lost but separators. -/
theorem exists_mem_splitGo {sep : List Char} {c : Char} (hne : sep ≠ []) (hsep : c ∉ sep)
    {skip : Nat} {part cs : List Char} (hskip : ∀ d ∈ cs.take skip, d ∈ sep)
    (h : c ∈ part ∨ c ∈ cs) : ∃ p ∈ splitGo sep skip part cs, c ∈ p := by
  induction skip, part, cs using splitGo.induct sep with
  | case1 skip part =>
      rw [splitGo]
      exact ⟨part, List.mem_singleton_self _, h.resolve_right List.not_mem_nil⟩
  | case2 skip part d cs ih =>
      -- the character passed over is one of the separator
      rw [List.take_succ_cons, List.forall_mem_cons] at hskip
      rw [splitGo]
      refine ih hskip.2 (h.imp_right fun hc => ?_)
      obtain rfl | hc := List.mem_cons.mp hc
      · exact absurd hskip.1 hsep
      · exact hc
  | case3 part d cs hstarts ih =>
      rw [splitGo, if_pos hstarts]
      obtain ⟨rest, hrest⟩ := List.isPrefixOf_iff_prefix.mp hstarts
      obtain ⟨e, sep', rfl⟩ := List.exists_cons_of_ne_nil hne
      rw [List.cons_append, List.cons.injEq] at hrest
      obtain ⟨rfl, rfl⟩ := hrest
      obtain hc | hc := h
      · exact ⟨part, List.mem_cons_self, hc⟩
      · have hc' := (List.mem_cons.mp hc).resolve_left fun heq => hsep (heq ▸ List.mem_cons_self)
        obtain ⟨p, hp, hcp⟩ := ih (by simp +contextual) (Or.inr hc')
        exact ⟨p, List.mem_cons_of_mem _ hp, hcp⟩
  | case4 part d cs hstarts ih =>
      rw [splitGo, if_neg hstarts]
      refine ih (by simp) ?_
      rw [List.mem_append, List.mem_singleton]
      rw [List.mem_cons] at h
      tauto

/-- A text is as clean as its parts, where the separator is clean. -/
theorem avoids_split (hne : sep ≠ "") (hsep : Avoids bad sep) :
    (∀ part ∈ split s sep, Avoids bad part) ↔ Avoids bad s := by
  rw [split, List.forall_mem_map]
  simp only [avoids_ofList]
  constructor
  · intro h c hc
    by_cases hmem : c ∈ sep.toList
    · exact hsep c hmem
    · have hpart : ∃ p ∈ splitGo sep.toList 0 [] s.toList, c ∈ p :=
        exists_mem_splitGo (by simpa using hne) hmem (by simp) (Or.inr hc)
      obtain ⟨p, hp, hcp⟩ := hpart
      exact h p hp c hcp
  · intro h p hp c hc
    obtain hnil | hmem := mem_of_splitGo p hp c hc
    · cases hnil
    · exact h c hmem

/-- The first part ends before the first separator. -/
theorem head_splitGo (c : Char) (part cs : List Char) :
    (splitGo [c] 0 part cs).head? = some (part ++ cs.takeWhile (· != c)) := by
  induction cs generalizing part with
  | nil => simp [splitGo]
  | cons d cs ih =>
      by_cases hd : d = c
      · simp [splitGo, hd]
      · have hno : ¬ [c].isPrefixOf (d :: cs) = true := by
          simpa using Ne.symm hd
        have htake : (d :: cs).takeWhile (· != c) = d :: cs.takeWhile (· != c) :=
          List.takeWhile_cons_of_pos (bne_iff_ne.mpr hd)
        rw [splitGo, if_neg hno, ih, htake, List.append_assoc, List.singleton_append]

theorem head_split (s : String) :
    (split s ":").getD 0 "" = String.ofList (s.toList.takeWhile (· != ':')) := by
  have hsep : (":" : String).toList = [':'] := rfl
  rw [split, hsep, List.getD_eq_getElem?_getD, List.getElem?_map, ← List.head?_eq_getElem?,
    head_splitGo, Option.map_some, Option.getD_some, List.nil_append]

end

/-! ## Tables -/

namespace Table

variable {nativeText : String → String} {t : Table} {key k : String}

theorem lookup_setEntries_self (key : String) (v : Count) (es : List (String × Count)) :
    (setEntries key v es).lookup key = some v := by
  induction es with
  | nil => simp [setEntries]
  | cons e es ih =>
      obtain ⟨k, w⟩ := e
      by_cases hk : k = key
      · simp [setEntries, hk]
      · rw [setEntries, if_neg hk, List.lookup_cons, beq_false_of_ne (Ne.symm hk), ih]

theorem lookup_setEntries_ne (h : k ≠ key) (v : Count) (es : List (String × Count)) :
    (setEntries key v es).lookup k = es.lookup k := by
  induction es with
  | nil => simp [setEntries, h]
  | cons e es ih =>
      obtain ⟨k', w⟩ := e
      by_cases hk : k' = key
      · rw [setEntries, if_pos hk, List.lookup_cons, List.lookup_cons, hk,
          beq_false_of_ne h]
      · rw [setEntries, if_neg hk, List.lookup_cons, List.lookup_cons, ih]

/-- A key that is not inherited is counted up. -/
theorem get?_bump_self (h : isInherited key = false) :
    (t.bump nativeText key).get? key = some (addOne (t.get? key)) := by
  rw [isInherited, Bool.or_eq_false_iff, beq_eq_false_iff_ne] at h
  have hinherited : inherited nativeText key = none := by
    rw [inherited, if_neg (by simpa using h.1), if_neg h.2]
  rw [bump, if_neg h.2, hinherited, Option.or_none, get?, lookup_setEntries_self]

/-- The other keys keep what they have. -/
theorem get?_bump_ne (h : k ≠ key) : (t.bump nativeText key).get? k = t.get? k := by
  rw [bump]
  split_ifs
  · rfl
  · rw [get?, lookup_setEntries_ne h, get?]

/-- What a table holds for a key that has been counted so many times. -/
def tally (n : Nat) : Option Count :=
  if n = 0 then none else some (.number n)

theorem addOne_tally {n : Nat} (h : n < maxCount) : some (addOne (tally n)) = tally (n + 1) := by
  rw [tally, tally, if_neg (Nat.succ_ne_zero n)]
  split_ifs with hn
  · rw [hn, addOne]
  · rw [addOne, if_pos h]

/-- Counting a list of keys up, each as often as it occurs. -/
theorem get?_foldl_bump {keys : List String} {n : Nat}
    (hkey : key ∈ keys → isInherited key = false) (ht : t.get? key = tally n)
    (hlen : n + keys.length ≤ maxCount) :
    (keys.foldl (bump nativeText) t).get? key = tally (n + keys.count key) := by
  induction keys generalizing t n with
  | nil => exact ht
  | cons k keys ih =>
      have hrest : key ∈ keys → isInherited key = false := fun h => hkey (List.mem_cons_of_mem k h)
      rw [List.length_cons] at hlen
      rw [List.foldl_cons, List.count_cons]
      by_cases hk : k = key
      · have hstep : (t.bump nativeText k).get? key = tally (n + 1) := by
          rw [hk, get?_bump_self (hkey (hk ▸ List.mem_cons_self)), ht]
          exact addOne_tally (by omega)
        rw [ih hrest hstep (by omega), if_pos (beq_iff_eq.mpr hk)]
        congr 1
        omega
      · have hstep : (t.bump nativeText k).get? key = tally n := by
          rw [get?_bump_ne (Ne.symm hk), ht]
        rw [ih hrest hstep (by omega), if_neg (by simpa using hk), Nat.add_zero]

/-- Counting from nothing. -/
theorem get?_count {keys : List String} (hkey : key ∈ keys → isInherited key = false)
    (hlen : keys.length ≤ maxCount) :
    (keys.foldl (bump nativeText) empty).get? key = tally (keys.count key) := by
  have hempty : empty.get? key = tally 0 := rfl
  rw [get?_foldl_bump hkey hempty (by omega), Nat.zero_add]

theorem mem_setEntries {v : Count} {es : List (String × Count)} {e : String × Count}
    (he : e ∈ setEntries key v es) : e ∈ es ∨ e = (key, v) := by
  induction es with
  | nil => exact Or.inr (List.mem_singleton.mp he)
  | cons d es ih =>
      obtain ⟨k, w⟩ := d
      rw [setEntries] at he
      split_ifs at he with hk
      · obtain rfl | he := List.mem_cons.mp he
        · exact Or.inr (by rw [hk])
        · exact Or.inl (List.mem_cons_of_mem _ he)
      · obtain rfl | he := List.mem_cons.mp he
        · exact Or.inl List.mem_cons_self
        · exact (ih he).imp_left (List.mem_cons_of_mem _)

/-- No key is there twice. -/
def Distinct (t : Table) : Prop :=
  (t.entries.map Prod.fst).Nodup

theorem keys_setEntries (key : String) (v : Count) (es : List (String × Count)) :
    (setEntries key v es).map Prod.fst =
      if key ∈ es.map Prod.fst then es.map Prod.fst else es.map Prod.fst ++ [key] := by
  induction es with
  | nil => rfl
  | cons e es ih =>
      obtain ⟨k, w⟩ := e
      rw [setEntries]
      by_cases hk : k = key
      · rw [if_pos hk, if_pos (by simp [hk])]
        rfl
      · rw [if_neg hk, List.map_cons, ih]
        have hmem : key ∈ ((k, w) :: es).map Prod.fst ↔ key ∈ es.map Prod.fst := by
          rw [List.map_cons, List.mem_cons]
          exact or_iff_right fun h => hk h.symm
        simp only [hmem]
        split_ifs <;> rfl

theorem Distinct.bump (h : t.Distinct) (nativeText : String → String) (key : String) :
    (t.bump nativeText key).Distinct := by
  unfold Table.bump Distinct
  split_ifs
  · exact h
  · rw [keys_setEntries]
    split_ifs with hmem
    · exact h
    · refine List.nodup_append.mpr ⟨h, by simp, ?_⟩
      intro k hk k' hk'
      rw [List.mem_singleton.mp hk']
      rintro rfl
      exact hmem hk

theorem distinct_foldl_bump (nativeText : String → String) (keys : List String) :
    (keys.foldl (bump nativeText) empty).Distinct := by
  have hall : ∀ t : Table, t.Distinct → (keys.foldl (bump nativeText) t).Distinct := by
    induction keys with
    | nil => exact fun t ht => ht
    | cons k keys ih => exact fun t ht => ih _ (ht.bump nativeText k)
  exact hall empty List.nodup_nil

theorem Distinct.get?_of_mem (h : t.Distinct) {e : String × Count} (he : e ∈ t.entries) :
    t.get? e.1 = some e.2 := by
  obtain ⟨entries⟩ := t
  unfold get?
  induction entries with
  | nil => cases he
  | cons d es ih =>
      unfold Distinct at h
      rw [List.map_cons, List.nodup_cons] at h
      obtain rfl | he := List.mem_cons.mp he
      · rw [List.lookup_cons, beq_self_eq_true]
      · have hne : e.1 ≠ d.1 := by
          intro heq
          exact h.1 (heq ▸ List.mem_map_of_mem he)
        rw [List.lookup_cons, beq_false_of_ne hne]
        exact ih h.2 he

/-- An entry of a table that was counted up says how often its key occurs. -/
theorem mem_entries_count {keys : List String} (hkeys : ∀ k ∈ keys, isInherited k = false)
    (hlen : keys.length ≤ maxCount) {e : String × Count}
    (he : e ∈ (keys.foldl (bump nativeText) empty).entries) :
    0 < keys.count e.1 ∧ e.2 = .number (keys.count e.1) := by
  have hget := (distinct_foldl_bump nativeText keys).get?_of_mem he
  rw [get?_count (hkeys e.1) hlen, tally] at hget
  split_ifs at hget with hzero
  rw [Option.some.injEq] at hget
  exact ⟨Nat.pos_of_ne_zero hzero, hget.symm⟩

theorem mem_of_get? {v : Count} (h : t.get? key = some v) : (key, v) ∈ t.entries := by
  obtain ⟨front, back, hentries, -⟩ := List.lookup_eq_some_iff.mp h
  rw [hentries]
  exact List.mem_append_right _ List.mem_cons_self

/-- The keys of a table and the texts among its counts have no marked
character. -/
def Avoids (bad : Char → Bool) (t : Table) : Prop :=
  ∀ e ∈ t.entries, Text.Avoids bad e.1 ∧ ∀ s, e.2 = .text s → Text.Avoids bad s

theorem avoids_addOne {bad : Char → Bool} {c : Option Count} {s : String} (hone : bad '1' = false)
    (hc : ∀ s, c = some (.text s) → Text.Avoids bad s) (hs : addOne c = .text s) :
    Text.Avoids bad s := by
  unfold addOne at hs
  split at hs
  · cases hs
  · cases hs
  · next s' =>
      split_ifs at hs
      cases hs
      rw [Text.avoids_append]
      exact ⟨hc s' rfl, fun d hd => List.mem_singleton.mp hd ▸ hone⟩

/-- Counting up a clean key keeps the table clean, where the inherited
properties are clean texts. -/
theorem avoids_bump {bad : Char → Bool} (hone : bad '1' = false)
    (hobject : Text.Avoids bad "[object Object]")
    (hnative : ∀ key ∈ objectMethods, Text.Avoids bad (nativeText key)) (h : t.Avoids bad)
    (hkey : Text.Avoids bad key) : (t.bump nativeText key).Avoids bad := by
  -- a key that is not there yet may name a property of all objects
  have hinherited : ∀ s, inherited nativeText key = some (.text s) → Text.Avoids bad s := by
    intro s hs
    unfold inherited at hs
    split_ifs at hs with hmethod
    · cases hs
      exact hnative key (by simpa using hmethod)
    · cases hs
      exact hobject
  rw [bump]
  split_ifs
  · exact h
  · intro e he
    obtain he | rfl := mem_setEntries he
    · exact h e he
    · refine ⟨hkey, fun s hs => avoids_addOne hone ?_ hs⟩
      intro s hs
      obtain hown | ⟨-, hs⟩ := Option.or_eq_some_iff.mp hs
      · exact (h _ (mem_of_get? hown)).2 s rfl
      · exact hinherited s hs

/-- What is enumerated are the properties. -/
theorem mem_forIn {e : String × Count} : e ∈ t.forIn ↔ e ∈ t.entries := by
  rw [forIn, List.mem_append, List.mem_mergeSort, List.mem_filter, List.mem_filter]
  cases arrayIndex e.1 <;> simp

end Table

end Js
