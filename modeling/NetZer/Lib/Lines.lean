import Mathlib.Data.List.DropRight
import NetZer.Lib.Text

/-! # Lines of text

`str::lines`, `str::trim` and slicing off the front of a text, and what a
header line is: a name, a colon and a value.
-/

namespace Text

open Unicode

/-! ## Lines -/

/-- `split_inclusive`: every piece but the last ends with the separator, and
none is empty. -/
def splitInclusive (sep : Char) : List Char → List (List Char)
  | [] => []
  | c :: cs =>
      if c = sep then [c] :: splitInclusive sep cs
      else
        match splitInclusive sep cs with
        | [] => [[c]]
        | piece :: pieces => (c :: piece) :: pieces

/-- `strip_suffix` of a character. -/
def stripEnd (c : Char) (cs : List Char) : Option (List Char) :=
  if cs.getLast? = some c then some cs.dropLast else none

/-- A line without its ending: a carriage return belongs to it only before a
line feed. -/
def stripLineEnd (cs : List Char) : List Char :=
  match stripEnd '\n' cs with
  | none => cs
  | some cs => (stripEnd '\r' cs).getD cs

/-- `s.lines().collect()`. -/
def lines (s : String) : List String :=
  (splitInclusive '\n' s.toList).map fun l => String.ofList (stripLineEnd l)

example : lines "a\r\n\nb\rc\r" = ["a", "", "b\rc\r"] := by decide

section

variable {sep c : Char} {l rest : List Char}

theorem splitInclusive_append (h : sep ∉ l) :
    splitInclusive sep (l ++ sep :: rest) = (l ++ [sep]) :: splitInclusive sep rest := by
  induction l with
  | nil => rw [List.nil_append, splitInclusive, if_pos rfl, List.nil_append]
  | cons c l ih =>
      obtain ⟨hc, hl⟩ := not_or.mp (List.mem_cons.not.mp h)
      rw [List.cons_append, splitInclusive, if_neg (Ne.symm hc), ih hl]
      rfl

theorem splitInclusive_last (h : sep ∉ l) (hne : l ≠ []) : splitInclusive sep l = [l] := by
  induction l with
  | nil => exact absurd rfl hne
  | cons c l ih =>
      obtain ⟨hc, hl⟩ := not_or.mp (List.mem_cons.not.mp h)
      rw [splitInclusive, if_neg (Ne.symm hc)]
      cases l with
      | nil => rfl
      | cons d l => rw [ih hl (List.cons_ne_nil d l)]

/-- Lines that are put together are split up again. -/
theorem splitInclusive_join {lines : List String} (h : ∀ line ∈ lines, '\n' ∉ line.toList) :
    splitInclusive '\n' (String.join (lines.map (· ++ "\n"))).toList =
      lines.map fun line => line.toList ++ ['\n'] := by
  induction lines with
  | nil => rfl
  | cons line lines ih =>
      rw [List.forall_mem_cons] at h
      have hchars : (String.join ((line :: lines).map (· ++ "\n"))).toList =
          line.toList ++ '\n' :: (String.join (lines.map (· ++ "\n"))).toList := by
        rw [List.map_cons, String.join_cons, String.toList_append, String.toList_append,
          List.append_assoc]
        rfl
      rw [hchars, splitInclusive_append h.1, ih h.2, List.map_cons]

theorem stripEnd_append : stripEnd c (l ++ [c]) = some l := by
  rw [stripEnd, List.getLast?_concat, if_pos rfl, List.dropLast_concat]

theorem stripEnd_of_ne (h : l.getLast? ≠ some c) : stripEnd c l = none :=
  if_neg h

end

/-- A line ended by a carriage return and a line feed. -/
theorem lines_crlf {l rest : List Char} (h : '\n' ∉ l) :
    lines (String.ofList (l ++ '\r' :: '\n' :: rest)) =
      String.ofList l :: lines (String.ofList rest) := by
  have hline : '\n' ∉ l ++ ['\r'] := by
    rw [List.mem_append, List.mem_singleton, not_or]
    exact ⟨h, by decide⟩
  have hsplit : splitInclusive '\n' (l ++ ['\r'] ++ '\n' :: rest) =
      (l ++ ['\r'] ++ ['\n']) :: splitInclusive '\n' rest :=
    splitInclusive_append hline
  rw [List.append_assoc, List.singleton_append] at hsplit
  rw [lines, lines, String.toList_ofList, String.toList_ofList, hsplit, List.map_cons,
    stripLineEnd, stripEnd_append]
  dsimp only
  rw [stripEnd_append, Option.getD_some]

/-- A last line without a line feed. -/
theorem lines_last {l : List Char} (h : '\n' ∉ l) (hne : l ≠ []) :
    lines (String.ofList l) = [String.ofList l] := by
  have hend : l.getLast? ≠ some '\n' := fun hlast => h (List.mem_of_getLast? hlast)
  rw [lines, String.toList_ofList, splitInclusive_last h hne, List.map_singleton, stripLineEnd,
    stripEnd_of_ne hend]

/-! ## Trimming -/

/-- `str::trim`. -/
def trim (s : String) : String :=
  String.ofList ((s.toList.dropWhile isWhitespace).rdropWhile isWhitespace)

/-- White space around a text without any. -/
theorem trim_eq {before cs after : List Char} (hbefore : ∀ c ∈ before, isWhitespace c = true)
    (hcs : ∀ c ∈ cs, isWhitespace c = false) (hafter : ∀ c ∈ after, isWhitespace c = true) :
    trim (String.ofList (before ++ cs ++ after)) = String.ofList cs := by
  have hstart : (before ++ cs ++ after).dropWhile isWhitespace = cs ++ after ∨ cs = [] := by
    cases cs with
    | nil => exact .inr rfl
    | cons c cs =>
        left
        rw [List.append_assoc, List.dropWhile_append_of_pos hbefore, List.cons_append,
          List.dropWhile_cons_of_neg (by simp [hcs c List.mem_cons_self])]
  rw [trim, String.toList_ofList]
  rcases hstart with hstart | rfl
  · have hafter' : ∀ c ∈ after.reverse, isWhitespace c = true := by simpa using hafter
    have hself : cs.rdropWhile isWhitespace = cs :=
      List.rdropWhile_eq_self_iff.mpr fun hne => by simp [hcs _ (List.getLast_mem hne)]
    rw [hstart, List.rdropWhile, List.reverse_append, List.dropWhile_append_of_pos hafter']
    exact congrArg String.ofList hself
  · have hall : (before ++ [] ++ after).dropWhile isWhitespace = [] := by
      rw [List.dropWhile_eq_nil_iff, List.append_nil, List.forall_mem_append]
      exact ⟨hbefore, hafter⟩
    rw [hall, List.rdropWhile_nil]

/-! ## Slicing off the front -/

/-- What follows byte `n`, when a character begins there or the text ends. -/
def dropBytes : List Char → Nat → Option (List Char)
  | cs, 0 => some cs
  | [], _ + 1 => none
  | c :: cs, n + 1 => if c.utf8Size ≤ n + 1 then dropBytes cs (n + 1 - c.utf8Size) else none

/-- `&s[n..]`: panics inside a character and past the end. -/
def sliceFrom {φ : Type} (s : String) (n : Nat) : Rust.Eval φ String :=
  match dropBytes s.toList n with
  | some cs => .ok (String.ofList cs)
  | none => .error ⟨.charBoundary, []⟩

theorem dropBytes_append (cs rest : List Char) :
    dropBytes (cs ++ rest) (byteLen cs) = some rest := by
  induction cs with
  | nil => cases rest <;> rfl
  | cons c cs ih =>
      have hpos := c.utf8Size_pos
      have hlen : byteLen (c :: cs) = (c.utf8Size + byteLen cs - 1) + 1 := by
        have hcons : byteLen (c :: cs) = c.utf8Size + byteLen cs := rfl
        omega
      have hrest : c.utf8Size + byteLen cs - 1 + 1 - c.utf8Size = byteLen cs := by omega
      rw [List.cons_append, hlen, dropBytes, if_pos (by omega), hrest, ih]

/-! ## Searching -/

/-- A search that also takes what it should not ends at the same place exactly if
nothing of this kind comes before. -/
theorem find?_or_eq_iff {α : Type} {p q : α → Bool} (l : List α) :
    l.find? (fun a => p a || q a) = l.find? p ↔
      ∀ a ∈ l.takeWhile (fun a => !p a), q a = false := by
  induction l with
  | nil => simp
  | cons a l ih =>
      by_cases hp : p a = true
      · simp [hp]
      · have hp' : p a = false := Bool.not_eq_true _ ▸ hp
        -- the other kind comes first
        by_cases hq : q a = true
        · rw [List.find?_cons_of_pos (by simp [hq]), List.find?_cons_of_neg hp,
            List.takeWhile_cons_of_pos (by simp [hp']), List.forall_mem_cons]
          constructor
          · intro h
            exact absurd (List.find?_some h.symm) hp
          · intro h
            rw [hq] at h
            exact absurd h.1 (by decide)
        · have hq' : q a = false := Bool.not_eq_true _ ▸ hq
          rw [List.find?_cons_of_neg (by simp [hp', hq']), List.find?_cons_of_neg hp,
            List.takeWhile_cons_of_pos (by simp [hp']), List.forall_mem_cons, ih]
          simp [hq']

/-! ## Header lines -/

/-- `line.split_once(':')`: a name and a value. -/
def splitColon (line : String) : Option (String × String) :=
  match line.toList.dropWhile (· != ':') with
  | [] => none
  | _ :: value =>
      some (String.ofList (line.toList.takeWhile (· != ':')), String.ofList value)

/-- `eq_ignore_ascii_case`. -/
def eqIgnoreAsciiCase (s t : String) : Bool :=
  s.toList.map Char.toLower == t.toList.map Char.toLower

theorem splitColon_eq_none {line : String} (h : ':' ∉ line.toList) : splitColon line = none := by
  have hall : line.toList.dropWhile (· != ':') = [] := by
    rw [List.dropWhile_eq_nil_iff]
    intro c hc
    rw [bne_iff_ne]
    rintro rfl
    exact h hc
  rw [splitColon, hall]

theorem splitColon_append {name value : List Char} (h : ':' ∉ name) :
    splitColon (String.ofList (name ++ ':' :: value)) =
      some (String.ofList name, String.ofList value) := by
  have hname : ∀ c ∈ name, (c != ':') = true := by
    intro c hc
    rw [bne_iff_ne]
    rintro rfl
    exact h hc
  rw [splitColon, String.toList_ofList, List.dropWhile_append_of_pos hname,
    List.takeWhile_append_of_pos hname, List.dropWhile_cons_of_neg (by simp),
    List.takeWhile_cons_of_neg (by simp), List.append_nil]

theorem eq_of_splitColon {line name value : String} (h : splitColon line = some (name, value)) :
    line.toList = name.toList ++ ':' :: value.toList := by
  unfold splitColon at h
  split at h
  · cases h
  · next c rest hdrop =>
      obtain ⟨rfl, rfl⟩ := Prod.mk.inj (Option.some.inj h)
      have hcolon := List.head?_dropWhile_not (· != ':') line.toList
      rw [hdrop] at hcolon
      have hc : c = ':' := by simpa using hcolon
      have hall := List.takeWhile_append_dropWhile (p := (· != ':')) (l := line.toList)
      rw [hdrop, hc] at hall
      simpa using hall.symm

/-- A line begins with a name and a colon, up to a change of letters, exactly if
this is its name. -/
theorem starts_name_iff {f : Char → Char} (hf : ∀ c, f c = ':' ↔ c = ':') {name : List Char}
    (hname : ':' ∉ name) (line : String) :
    name ++ [':'] <+: line.toList.map f ↔
      ∃ header, splitColon line = some header ∧ header.1.toList.map f = name := by
  constructor
  · rintro ⟨rest, hrest⟩
    obtain ⟨start, value, hline, hstart, rfl⟩ := List.map_eq_append_iff.mp hrest.symm
    obtain ⟨spelled, colon, rfl, rfl, hcolon⟩ := List.map_eq_append_iff.mp hstart
    obtain ⟨c, rfl, hc⟩ := List.map_eq_singleton_iff.mp hcolon
    obtain rfl : c = ':' := (hf c).mp hc
    have hspelled : ':' ∉ spelled := fun hmem =>
      hname (List.mem_map.mpr ⟨':', hmem, (hf ':').mpr rfl⟩)
    refine ⟨(String.ofList spelled, String.ofList value), ?_, ?_⟩
    · rw [← splitColon_append hspelled, ← String.ofList_toList (s := line), hline]
      simp
    · rw [String.toList_ofList]
  · rintro ⟨header, hsplit, rfl⟩
    rw [eq_of_splitColon hsplit, List.map_append, List.map_cons, (hf ':').mpr rfl]
    exact ⟨header.2.toList.map f, by simp⟩

end Text
