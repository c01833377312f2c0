import NetZer.Lib.Text

/-! # HTML put together from templates

An HTML string is a template with contents put into its holes. What its tags are
is decided by reading the string from its beginning, so a content is part of the
markup if one of its characters ends what the template has begun. Contents that
have no such character leave the tags of the template as they are.
-/

namespace Html

/-- A tag: its name and the names of its attributes. -/
structure Tag where
  closing : Bool
  name : List Char
  attributes : List (List Char)
deriving DecidableEq, Repr

/-- What a tokenizer of HTML is reading. -/
inductive State where
  | data
  | tagOpen (closing : Bool)
  | comment
  | tagName (t : Tag)
  | beforeAttribute (t : Tag)
  | attributeName (t : Tag) (name : List Char)
  | afterAttribute (t : Tag)
  | beforeValue (t : Tag)
  | quoted (t : Tag) (quote : Char)
  | unquoted (t : Tag)
deriving DecidableEq, Repr

def isSpace (c : Char) : Bool :=
  c == ' ' || c == '\n' || c == '\t' || c == '\x0c' || c == '\r'

/-- Behind a name or a value: on to the next attribute, or the end of the tag. -/
def State.nextAttribute (t : Tag) (c : Char) : State × Option Tag :=
  if isSpace c || c == '/' then (.beforeAttribute t, none)
  else if c = '>' then (.data, some t)
  else (.attributeName t [c], none)

/-- One character more, as the standard has it for tags; a comment is skipped up
to the next `>`. -/
def State.advance : State → Char → State × Option Tag
  | .data, c => (if c = '<' then .tagOpen false else .data, none)
  | .tagOpen closing, c =>
      if c.isAlpha then (.tagName ⟨closing, [c.toLower], []⟩, none)
      else if closing then (if c = '>' then .data else .comment, none)
      else if c = '/' then (.tagOpen true, none)
      else if c = '!' ∨ c = '?' then (.comment, none)
      -- a `<` before anything else is text
      else (if c = '<' then .tagOpen false else .data, none)
  | .comment, c => (if c = '>' then .data else .comment, none)
  | .tagName t, c =>
      if isSpace c || c == '/' then (.beforeAttribute t, none)
      else if c = '>' then (.data, some t)
      else (.tagName { t with name := t.name ++ [c.toLower] }, none)
  | .beforeAttribute t, c => nextAttribute t c
  | .attributeName t name, c =>
      let named : Tag := { t with attributes := t.attributes ++ [name] }
      if isSpace c then (.afterAttribute named, none)
      else if c = '/' then (.beforeAttribute named, none)
      else if c = '>' then (.data, some named)
      else if c = '=' then (.beforeValue named, none)
      else (.attributeName t (name ++ [c.toLower]), none)
  | .afterAttribute t, c =>
      if c = '=' then (.beforeValue t, none)
      else if isSpace c then (.afterAttribute t, none)
      else nextAttribute t c
  | .beforeValue t, c =>
      if isSpace c then (.beforeValue t, none)
      else if c = '"' ∨ c = '\'' then (.quoted t c, none)
      else if c = '>' then (.data, some t)
      else (.unquoted t, none)
  | .quoted t quote, c => (if c = quote then .beforeAttribute t else .quoted t quote, none)
  | .unquoted t, c =>
      if isSpace c then (.beforeAttribute t, none)
      else if c = '>' then (.data, some t)
      else (.unquoted t, none)

/-- The tags in a text, from a state on. -/
def scan : State → List Char → State × List Tag
  | s, [] => (s, [])
  | s, c :: cs =>
      ((scan (s.advance c).1 cs).1, (s.advance c).2.toList ++ (scan (s.advance c).1 cs).2)

/-- The tags of an HTML string. -/
def tags (html : String) : List Tag :=
  (scan .data html.toList).2

/-- A part of an HTML string: the template's own, or a content in one of its
holes, between tags or in the value of an attribute. -/
inductive Piece where
  | markup (s : String)
  | text (s : String)
  | value (s : String)
deriving DecidableEq, Repr

def Piece.string : Piece → String
  | .markup s => s
  | .text s => s
  | .value s => s

/-- The pieces of an HTML string. -/
abbrev Pieces := List Piece

/-- The string they make. -/
def string (h : Pieces) : String :=
  String.join (h.map Piece.string)

/-- The template alone. -/
def Piece.template : Piece → Piece
  | .markup s => .markup s
  | .text _ => .text ""
  | .value _ => .value ""

def template (h : Pieces) : Pieces :=
  h.map Piece.template

/-- The characters that begin a tag or a character reference. -/
def isMarkup (c : Char) : Bool :=
  c == '<' || c == '&'

/-- The quotation mark ends the value of an attribute. -/
def isMarkupInValue (c : Char) : Bool :=
  isMarkup c || c == '"'

/-- No character of a content is read as markup where it stands. -/
def Piece.Clean : Piece → Prop
  | .markup _ => True
  | .text s => Text.Avoids isMarkup s
  | .value s => Text.Avoids isMarkupInValue s

instance : (p : Piece) → Decidable p.Clean
  | .markup _ => .isTrue trivial
  | .text s => inferInstanceAs (Decidable (Text.Avoids isMarkup s))
  | .value s => inferInstanceAs (Decidable (Text.Avoids isMarkupInValue s))

def Clean (h : Pieces) : Prop :=
  ∀ p ∈ h, p.Clean

/-- Between the quotation marks of a value. -/
def State.inValue : State → Bool
  | .quoted _ quote => quote == '"'
  | _ => false

/-- The holes are where they are said to be: between tags, or in a value in
quotation marks. -/
def placed : State → Pieces → Bool
  | s, [] => s == .data
  | s, .markup m :: h => placed (scan s m.toList).1 h
  | s, .text _ :: h => s == .data && placed s h
  | s, .value _ :: h => s.inValue && placed s h

/-! ## Reading on -/

section

variable {s : State} {h h' : Pieces}

theorem scan_append (s : State) (cs ds : List Char) :
    scan s (cs ++ ds) =
      ((scan (scan s cs).1 ds).1, (scan s cs).2 ++ (scan (scan s cs).1 ds).2) := by
  induction cs generalizing s with
  | nil => rfl
  | cons c cs ih =>
      rw [List.cons_append, scan, ih, scan, List.append_assoc]

/-- A text between tags that has no `<` is no more than text. -/
theorem scan_data {cs : List Char} (hcs : ∀ c ∈ cs, c ≠ '<') : scan .data cs = (.data, []) := by
  induction cs with
  | nil => rfl
  | cons c cs ih =>
      obtain ⟨hc, hrest⟩ := List.forall_mem_cons.mp hcs
      have hstep : State.advance .data c = (.data, none) := by
        rw [State.advance, if_neg hc]
      rw [scan, hstep, ih hrest]
      rfl

/-- A value goes on up to its quotation mark. -/
theorem scan_quoted {t : Tag} {quote : Char} {cs : List Char} (hcs : ∀ c ∈ cs, c ≠ quote) :
    scan (.quoted t quote) cs = (.quoted t quote, []) := by
  induction cs with
  | nil => rfl
  | cons c cs ih =>
      obtain ⟨hc, hrest⟩ := List.forall_mem_cons.mp hcs
      have hstep : State.advance (.quoted t quote) c = (.quoted t quote, none) := by
        rw [State.advance, if_neg hc]
      rw [scan, hstep, ih hrest]
      rfl

theorem inValue_iff : s.inValue = true ↔ ∃ t, s = .quoted t '"' := by
  constructor
  · intro h
    unfold State.inValue at h
    split at h
    · next t quote => exact ⟨t, by rw [beq_iff_eq.mp h]⟩
    · cases h
  · rintro ⟨t, rfl⟩
    rfl

theorem string_cons (p : Piece) (h : Pieces) :
    (string (p :: h)).toList = p.string.toList ++ (string h).toList := by
  rw [string, List.map_cons, String.join_cons, String.toList_append, string]

/-- Clean contents in their places leave the tags of the template. -/
theorem scan_template (hplaced : placed s h = true) (hclean : Clean h) :
    scan s (string h).toList = scan s (string (template h)).toList := by
  induction h generalizing s with
  | nil => rfl
  | cons p h ih =>
      obtain ⟨hp, hrest⟩ := List.forall_mem_cons.mp hclean
      have htemplate : template (p :: h) = p.template :: template h := rfl
      rw [htemplate, string_cons, string_cons, scan_append, scan_append]
      cases p with
      | markup m =>
          rw [placed] at hplaced
          rw [Piece.template, Piece.string, ih hplaced hrest]
      | text c =>
          rw [placed, Bool.and_eq_true, beq_iff_eq] at hplaced
          obtain ⟨rfl, hplaced⟩ := hplaced
          have hplain : ∀ d ∈ c.toList, d ≠ '<' := by
            rintro d hd rfl
            exact absurd (hp '<' hd) (by decide)
          rw [Piece.template, Piece.string, Piece.string, scan_data hplain, ih hplaced hrest]
          rfl
      | value c =>
          rw [placed, Bool.and_eq_true] at hplaced
          obtain ⟨hquoted, hplaced⟩ := hplaced
          obtain ⟨t, rfl⟩ := inValue_iff.mp hquoted
          have hplain : ∀ d ∈ c.toList, d ≠ '"' := by
            rintro d hd rfl
            exact absurd (hp '"' hd) (by decide)
          rw [Piece.template, Piece.string, Piece.string, scan_quoted hplain, ih hplaced hrest]
          rfl

theorem tags_template (hplaced : placed .data h = true) (hclean : Clean h) :
    tags (string h) = tags (string (template h)) := by
  rw [tags, tags, scan_template hplaced hclean]

/-- No character of a content is read as markup, and the tags are those of the
template. -/
def Safe (h : Pieces) : Prop :=
  Clean h ∧ tags (string h) = tags (string (template h))

/-- Clean contents are enough. -/
theorem safe_iff_clean (hplaced : placed .data h = true) : Safe h ↔ Clean h := by
  constructor
  · intro hsafe
    exact hsafe.1
  · intro hclean
    exact ⟨hclean, tags_template hplaced hclean⟩

@[simp] theorem clean_nil : Clean [] := by
  intro p hp
  cases hp

@[simp] theorem clean_cons {p : Piece} : Clean (p :: h) ↔ p.Clean ∧ Clean h :=
  List.forall_mem_cons

@[simp] theorem clean_append : Clean (h ++ h') ↔ Clean h ∧ Clean h' :=
  List.forall_mem_append

theorem clean_flatten {l : List Pieces} : Clean l.flatten ↔ ∀ h ∈ l, Clean h := by
  induction l with
  | nil => simp
  | cons h l ih => rw [List.flatten_cons, clean_append, ih, List.forall_mem_cons]

theorem isMarkup_of_inValue {c : Char} (hc : isMarkupInValue c = false) : isMarkup c = false := by
  rw [isMarkupInValue, Bool.or_eq_false_iff] at hc
  exact hc.1

theorem placed_append (hplaced : placed s h = true) (hplaced' : placed .data h' = true) :
    placed s (h ++ h') = true := by
  induction h generalizing s with
  | nil =>
      rw [placed, beq_iff_eq] at hplaced
      rw [List.nil_append, hplaced]
      exact hplaced'
  | cons p h ih =>
      rw [List.cons_append]
      cases p with
      | markup m =>
          rw [placed] at hplaced ⊢
          exact ih hplaced
      | text c =>
          rw [placed, Bool.and_eq_true] at hplaced ⊢
          exact ⟨hplaced.1, ih hplaced.2⟩
      | value c =>
          rw [placed, Bool.and_eq_true] at hplaced ⊢
          exact ⟨hplaced.1, ih hplaced.2⟩

/-- Where the holes are does not depend on what is in them. -/
theorem placed_template (s : State) (h : Pieces) : placed s (template h) = placed s h := by
  induction h generalizing s with
  | nil => rfl
  | cons p h ih =>
      have htemplate : template (p :: h) = p.template :: template h := rfl
      rw [htemplate]
      cases p with
      | markup m => exact ih _
      | text c => rw [Piece.template, placed, placed, ih]
      | value c => rw [Piece.template, placed, placed, ih]

theorem placed_flatten {l : List Pieces} (hplaced : ∀ h ∈ l, placed .data h = true) :
    placed .data l.flatten = true := by
  induction l with
  | nil => rfl
  | cons h l ih =>
      obtain ⟨hfirst, hrest⟩ := List.forall_mem_cons.mp hplaced
      rw [List.flatten_cons]
      exact placed_append hfirst (ih hrest)

end

end Html
