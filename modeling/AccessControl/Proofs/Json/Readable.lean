import AccessControl.Proofs.Json.Strings
import AccessControl.Proofs.Text.Separation

/-!
# JSON texts are read in one way only

A value is known by the first character of its text, and its text ends where the value ends: numbers
end where no digit follows, and everything else ends by itself. This holds for each layout that
puts nothing but white space between the parts of a list. So different values have
different texts, compact or indented.
-/

namespace AccessControl
namespace Json

/-! ## Induction on values -/

theorem sizeOf_lt_array {elements : List Json} {value : Json} (h : value ∈ elements) :
    sizeOf value < sizeOf (Json.array elements) := by
  have hlt := List.sizeOf_lt_of_mem h
  rw [Json.array.sizeOf_spec]
  omega

theorem sizeOf_lt_object {members : List (String × Json)} {member : String × Json}
    (h : member ∈ members) : sizeOf member.2 < sizeOf (Json.object members) := by
  obtain ⟨name, value⟩ := member
  have hlt := List.sizeOf_lt_of_mem h
  rw [Prod.mk.sizeOf_spec] at hlt
  rw [Json.object.sizeOf_spec]
  change sizeOf value < _
  omega

/-- What holds for a value if it holds for everything inside holds for every value. -/
theorem induct {motive : Json → Prop} (null : motive .null) (number : ∀ n, motive (.number n))
    (string : ∀ s, motive (.string s))
    (array : ∀ elements, (∀ value ∈ elements, motive value) → motive (.array elements))
    (object : ∀ members, (∀ member ∈ members, motive member.2) → motive (.object members)) :
    ∀ j, motive j
  | .null => null
  | .number n => number n
  | .string s => string s
  | .array elements =>
    array elements fun value _ => induct null number string array object value
  | .object members =>
    object members fun member _ => induct null number string array object member.2
termination_by j => sizeOf j
decreasing_by
  · exact sizeOf_lt_array ‹_›
  · exact sizeOf_lt_object ‹_›

/-! ## Kinds of values -/

inductive Kind
  | null
  | number
  | string
  | array
  | object
deriving DecidableEq

def kind : Json → Kind
  | null => .null
  | number _ => .number
  | string _ => .string
  | array _ => .array
  | object _ => .object

/-- The kind of the value whose text begins with this character. -/
def kindOfFirst (c : Char) : Kind :=
  if c = 'n' then .null
  else if c = '\x22' then .string
  else if c = '[' then .array
  else if c = '\x7b' then .object
  else .number

/-! ## Lists in brackets -/

/-- Items between brackets; `front` stands before each of them and `back` behind the last. -/
def bracketed (opening closing : Char) (front back : List Char) : List (List Char) → List Char
  | [] => [opening, closing]
  | item :: items =>
    opening :: (front ++ (item ++ (items.flatMap (',' :: front ++ ·) ++ (back ++ [closing]))))

/-- White space of the indented layout. -/
def isSpace (c : Char) : Bool := c == ' ' || c == '\n'

/-- The end of a list. -/
def isClosing (c : Char) : Bool := c == ']' || c == '\x7d'

theorem isClosing_of_isSpace {c : Char} (h : isSpace c = true) : isClosing c = false := by
  rcases Bool.or_eq_true_iff.mp h with h | h
  all_goals rw [beq_iff_eq.mp h]; rfl

/-- Nothing that could be part of a number follows. -/
def EndsNumber (rest : List Char) : Prop := Text.EndsRun Char.isDigit rest

/-- What stands behind an item if the list goes on, or if the item does. -/
def continuesItems (c : Char) : Bool := c.isDigit || c == ','

theorem continuesItems_of_isSpace {c : Char} (h : isSpace c = true) : continuesItems c = false := by
  rcases Bool.or_eq_true_iff.mp h with h | h
  all_goals rw [beq_iff_eq.mp h]; rfl

theorem continuesItems_of_isClosing {c : Char} (h : isClosing c = true) :
    continuesItems c = false := by
  rcases Bool.or_eq_true_iff.mp h with h | h
  all_goals rw [beq_iff_eq.mp h]; rfl

def EndsItems (rest : List Char) : Prop := Text.EndsRun continuesItems rest

/-- What is written for this item tells it and its end from every other. -/
def Readable {α : Type} (text : α → List Char) (a : α) : Prop :=
  ∀ b r s, EndsNumber r → EndsNumber s → text a ++ r = text b ++ s → a = b ∧ r = s

section Lists

variable {α : Type} {text : α → List Char} {front back : List Char}

theorem endsNumber_items {items : List (List Char)} {rest : List Char} (h : EndsItems rest) :
    EndsNumber (items.flatMap (',' :: front ++ ·) ++ rest) := by
  cases items with
  | nil =>
    intro c hc
    exact (Bool.or_eq_false_iff.mp (h c hc)).1
  | cons item items =>
    apply Text.endsRun_cons
    rfl

theorem items_inj {as bs : List α} {r s : List Char} (has : ∀ a ∈ as, Readable text a)
    (hr : EndsItems r) (hs : EndsItems s)
    (h : (as.map text).flatMap (',' :: front ++ ·) ++ r =
      (bs.map text).flatMap (',' :: front ++ ·) ++ s) : as = bs ∧ r = s := by
  -- On the items; what stands behind the last of them is not the comma before another.
  induction as generalizing bs with
  | nil =>
    cases bs with
    | nil => exact ⟨rfl, h⟩
    | cons b bs =>
      subst h
      exact absurd (hr ',' rfl) (by decide)
  | cons a as ih =>
    cases bs with
    | nil =>
      subst h
      exact absurd (hs ',' rfl) (by decide)
    | cons b bs =>
      obtain ⟨ha, has⟩ := List.forall_mem_cons.mp has
      simp only [List.map_cons, List.flatMap_cons, List.append_assoc] at h
      obtain ⟨rfl, hrest⟩ := ha b _ _ (endsNumber_items hr) (endsNumber_items hs)
        (List.append_cancel_left h)
      obtain ⟨rfl, hbehind⟩ := ih has hrest
      exact ⟨rfl, hbehind⟩

variable {opening closing : Char}

theorem endsItems_back (hback : ∀ c ∈ back, isSpace c = true) (hclosing : isClosing closing = true)
    (rest : List Char) : EndsItems (back ++ closing :: rest) := by
  cases back with
  | nil => exact Text.endsRun_cons (continuesItems_of_isClosing hclosing) rest
  | cons c back =>
    exact Text.endsRun_cons (continuesItems_of_isSpace (hback c List.mem_cons_self)) _

/-- An item begins, and not with the end of a list. -/
def StartsItem (item : List Char) : Prop :=
  ∃ first rest, item = first :: rest ∧ isClosing first = false

/-- A list that goes on with an item does not end. -/
theorem closing_ne_item {item r s : List Char} (hfront : ∀ c ∈ front, isSpace c = true)
    (hclosing : isClosing closing = true) (hitem : StartsItem item) :
    closing :: r ≠ front ++ (item ++ s) := by
  intro h
  have hopen : ∀ c ∈ (front ++ (item ++ s)).head?, isClosing c = false := by
    obtain ⟨first, rest, rfl, hfirst⟩ := hitem
    cases front with
    | nil =>
      rintro _ ⟨⟩
      exact hfirst
    | cons c front =>
      rintro _ ⟨⟩
      exact isClosing_of_isSpace (hfront c List.mem_cons_self)
  rw [← h] at hopen
  exact absurd hclosing (ne_true_of_eq_false (hopen closing rfl))

theorem bracketed_inj {as bs : List α} {r s : List Char} (hfront : ∀ c ∈ front, isSpace c = true)
    (hback : ∀ c ∈ back, isSpace c = true) (hclosing : isClosing closing = true)
    (hstart : ∀ a, StartsItem (text a)) (has : ∀ a ∈ as, Readable text a)
    (h : bracketed opening closing front back (as.map text) ++ r =
      bracketed opening closing front back (bs.map text) ++ s) : as = bs ∧ r = s := by
  cases as with
  | nil =>
    cases bs with
    | nil => exact ⟨rfl, List.tail_eq_of_cons_eq (List.tail_eq_of_cons_eq h)⟩
    | cons b bs =>
      simp only [List.map_nil, List.map_cons, bracketed, List.cons_append, List.append_assoc] at h
      exact absurd (List.tail_eq_of_cons_eq h) (closing_ne_item hfront hclosing (hstart b))
  | cons a as =>
    cases bs with
    | nil =>
      simp only [List.map_nil, List.map_cons, bracketed, List.cons_append, List.append_assoc] at h
      exact absurd (List.tail_eq_of_cons_eq h).symm (closing_ne_item hfront hclosing (hstart a))
    | cons b bs =>
      simp only [List.map_cons, bracketed, List.cons_append, List.append_assoc,
        List.nil_append] at h
      have hitems := List.append_cancel_left (List.tail_eq_of_cons_eq h)
      obtain ⟨ha, has⟩ := List.forall_mem_cons.mp has
      obtain ⟨rfl, hrest⟩ := ha b _ _ (endsNumber_items (endsItems_back hback hclosing r))
        (endsNumber_items (endsItems_back hback hclosing s)) hitems
      obtain ⟨rfl, hbehind⟩ := items_inj has (endsItems_back hback hclosing r)
        (endsItems_back hback hclosing s) hrest
      exact ⟨rfl, List.tail_eq_of_cons_eq (List.append_cancel_left hbehind)⟩

end Lists

/-! ## Layouts -/

/-- A name, a colon and a value. -/
def memberText (space : List Char) (text : Json → List Char) (member : String × Json) : List Char :=
  (quoted member.1).toList ++ ':' :: (space ++ text member.2)

/-- A way of writing values that differs from others in white space only. -/
structure Layout where
  text : (depth : Nat) → Json → List Char
  /-- What stands at the beginning of a line of this depth. -/
  gap : (depth : Nat) → List Char
  /-- What stands behind the colon of a member. -/
  space : List Char
  isSpace_gap : ∀ depth, ∀ c ∈ gap depth, isSpace c = true
  text_null : ∀ depth, text depth .null = "null".toList
  text_number : ∀ depth n, text depth (.number n) = Nat.toDigits 10 n
  text_string : ∀ depth s, text depth (.string s) = (quoted s).toList
  text_array : ∀ depth elements, text depth (.array elements) =
    bracketed '[' ']' (gap (depth + 1)) (gap depth) (elements.map (text (depth + 1)))
  text_object : ∀ depth members, text depth (.object members) =
    bracketed '\x7b' '\x7d' (gap (depth + 1)) (gap depth)
      (members.map (memberText space (text (depth + 1))))

theorem exists_bracketed_eq_cons (opening closing : Char) (front back : List Char)
    (items : List (List Char)) :
    ∃ rest, bracketed opening closing front back items = opening :: rest := by
  cases items with
  | nil => exact ⟨_, rfl⟩
  | cons item items => exact ⟨_, rfl⟩

namespace Layout

variable (L : Layout)

/-- The first character of a text tells the kind of the value, and does not end a list. -/
theorem text_begins (depth : Nat) (j : Json) : ∃ first rest, L.text depth j = first :: rest ∧
    kindOfFirst first = j.kind ∧ isClosing first = false := by
  cases j with
  | null => exact ⟨'n', _, L.text_null depth, rfl, rfl⟩
  | number n =>
    have hdigits : ∀ d < 10, kindOfFirst (Nat.digitChar d) = .number ∧
        isClosing (Nat.digitChar d) = false := by decide
    have hbase : 1 < 10 := by decide
    have hne : Nat.toDigits 10 n ≠ [] := Nat.toDigits_ne_nil
    obtain ⟨first, rest, hfirst⟩ := List.exists_cons_of_ne_nil hne
    have hmem : first ∈ Nat.toDigits 10 n := by
      rw [hfirst]
      exact List.mem_cons_self
    obtain ⟨d, hd, rfl⟩ := Numeral.exists_digit_of_mem_toDigits hbase hmem
    exact ⟨_, rest, (L.text_number depth n).trans hfirst, hdigits d hd⟩
  | string s => exact ⟨'\x22', _, (L.text_string depth s).trans (toList_quoted s), rfl, rfl⟩
  | array elements =>
    obtain ⟨rest, hrest⟩ := exists_bracketed_eq_cons '[' ']' (L.gap (depth + 1)) (L.gap depth)
      (elements.map (L.text (depth + 1)))
    exact ⟨'[', rest, (L.text_array depth elements).trans hrest, rfl, rfl⟩
  | object members =>
    obtain ⟨rest, hrest⟩ := exists_bracketed_eq_cons '\x7b' '\x7d' (L.gap (depth + 1))
      (L.gap depth) (members.map (memberText L.space (L.text (depth + 1))))
    exact ⟨'\x7b', rest, (L.text_object depth members).trans hrest, rfl, rfl⟩

theorem startsItem_text (depth : Nat) (j : Json) : StartsItem (L.text depth j) := by
  obtain ⟨first, rest, heq, -, hopen⟩ := L.text_begins depth j
  exact ⟨first, rest, heq, hopen⟩

theorem startsItem_memberText (depth : Nat) (member : String × Json) :
    StartsItem (memberText L.space (L.text depth) member) := by
  rw [memberText, toList_quoted]
  exact ⟨'\x22', _, rfl, rfl⟩

theorem kind_eq {depth : Nat} {i j : Json} {r s : List Char}
    (h : L.text depth i ++ r = L.text depth j ++ s) : i.kind = j.kind := by
  obtain ⟨first, rest, hi, hkind, -⟩ := L.text_begins depth i
  obtain ⟨first', rest', hj, hkind', -⟩ := L.text_begins depth j
  rw [hi, hj] at h
  rw [← hkind, ← hkind', List.head_eq_of_cons_eq h]

theorem readable_memberText {depth : Nat} {member : String × Json}
    (h : Readable (L.text depth) member.2) :
    Readable (memberText L.space (L.text depth)) member := by
  intro other r s hr hs heq
  simp only [memberText, List.append_assoc, List.cons_append] at heq
  obtain ⟨hname, hrest⟩ := quoted_inj heq
  have hvalues := List.append_cancel_left (List.tail_eq_of_cons_eq hrest)
  obtain ⟨hvalue, hbehind⟩ := h other.2 r s hr hs hvalues
  exact ⟨Prod.ext hname hvalue, hbehind⟩

/-- The text of a value tells the value and where the text ends. -/
theorem readable (depth : Nat) (j : Json) : Readable (L.text depth) j := by
  -- On the value. Texts that begin alike are of values of one kind, so one case is left in each.
  induction j using induct generalizing depth with
  | null =>
    intro other r s hr hs h
    have hkind := L.kind_eq h
    cases other with
    | null => exact ⟨rfl, List.append_cancel_left h⟩
    | number _ | string _ | array _ | object _ => cases hkind
  | number n =>
    intro other r s hr hs h
    have hkind := L.kind_eq h
    cases other with
    | number m =>
      rw [L.text_number, L.text_number] at h
      have hdigits (n : Nat) : ∀ c ∈ Nat.toDigits 10 n, c.isDigit = true :=
        fun _ => Numeral.isDigit_of_mem_toDigits
      obtain ⟨hnumber, hrest⟩ := Text.run_inj (hdigits n) (hdigits m) hr hs h
      rw [Numeral.toDigits_injective (by decide) (by decide) hnumber]
      exact ⟨rfl, hrest⟩
    | null | string _ | array _ | object _ => cases hkind
  | string a =>
    intro other r s hr hs h
    have hkind := L.kind_eq h
    cases other with
    | string b =>
      rw [L.text_string, L.text_string] at h
      obtain ⟨rfl, hrest⟩ := quoted_inj h
      exact ⟨rfl, hrest⟩
    | null | number _ | array _ | object _ => cases hkind
  | array elements ih =>
    intro other r s hr hs h
    have hkind := L.kind_eq h
    cases other with
    | array elements' =>
      rw [L.text_array, L.text_array] at h
      obtain ⟨rfl, hrest⟩ := bracketed_inj (L.isSpace_gap _) (L.isSpace_gap _) rfl
        (L.startsItem_text _) (fun value hvalue => ih value hvalue _) h
      exact ⟨rfl, hrest⟩
    | null | number _ | string _ | object _ => cases hkind
  | object members ih =>
    intro other r s hr hs h
    have hkind := L.kind_eq h
    cases other with
    | object members' =>
      rw [L.text_object, L.text_object] at h
      obtain ⟨rfl, hrest⟩ := bracketed_inj (L.isSpace_gap _) (L.isSpace_gap _) rfl
        (L.startsItem_memberText _)
        (fun member hmember => L.readable_memberText (ih member hmember _)) h
      exact ⟨rfl, hrest⟩
    | null | number _ | string _ | array _ => cases hkind

theorem text_injective (depth : Nat) : Function.Injective (L.text depth) := by
  intro i j h
  apply (L.readable depth i j [] [] Text.endsRun_nil Text.endsRun_nil _).1
  rw [List.append_nil, List.append_nil, h]

end Layout

/-! ## The compact and the indented layout -/

theorem compactElements_eq_map (elements : List Json) :
    compactElements elements = elements.map compact := by
  induction elements with
  | nil => rfl
  | cons value rest ih => rw [compactElements, ih, List.map_cons]

theorem compactMembers_eq_map (members : List (String × Json)) :
    compactMembers members = members.map fun m => quoted m.1 ++ ":" ++ compact m.2 := by
  induction members with
  | nil => rfl
  | cons member rest ih =>
    obtain ⟨name, value⟩ := member
    rw [compactMembers, ih, List.map_cons]

theorem prettyElements_eq_map (depth : Nat) (elements : List Json) :
    prettyElements depth elements = elements.map (pretty depth) := by
  induction elements with
  | nil => rfl
  | cons value rest ih => rw [prettyElements, ih, List.map_cons]

theorem prettyMembers_eq_map (depth : Nat) (members : List (String × Json)) :
    prettyMembers depth members = members.map fun m => quoted m.1 ++ ": " ++ pretty depth m.2 := by
  induction members with
  | nil => rfl
  | cons member rest ih =>
    obtain ⟨name, value⟩ := member
    rw [prettyMembers, ih, List.map_cons]

theorem toList_compact_list (opening closing : Char) (items : List String) :
    (String.singleton opening ++ ",".intercalate items ++ String.singleton closing).toList =
      bracketed opening closing [] [] (items.map String.toList) := by
  have hcomma : ",".toList = [','] := rfl
  cases items with
  | nil => simp [bracketed]
  | cons item items => simp [bracketed, String.toList_intercalate, hcomma, Text.intercalate_cons]

theorem toList_newline (depth : Nat) :
    (newline depth).toList = '\n' :: List.replicate (2 * depth) ' ' := by
  simp [newline]

theorem toList_indented (depth : Nat) (opening closing : Char) (items : List String) :
    (indented depth (String.singleton opening) (String.singleton closing) items).toList =
      bracketed opening closing (newline (depth + 1)).toList (newline depth).toList
        (items.map String.toList) := by
  have hcomma : ",".toList = [','] := rfl
  cases items with
  | nil => simp [indented, bracketed]
  | cons item items =>
    simp [indented, bracketed, String.toList_intercalate, hcomma, Text.intercalate_cons]

theorem isSpace_newline (depth : Nat) : ∀ c ∈ (newline depth).toList, isSpace c = true := by
  rw [toList_newline]
  intro c hc
  rcases List.mem_cons.mp hc with rfl | hblank
  · rfl
  · rw [List.eq_of_mem_replicate hblank]
    rfl

def compactLayout : Layout where
  text _ j := j.compact.toList
  gap _ := []
  space := []
  isSpace_gap _ := List.forall_mem_nil _
  text_null _ := rfl
  text_number _ n := by rw [compact, Numeral.decimal, Numeral.toList_text]
  text_string _ _ := by rw [compact]
  text_array _ elements := by
    have htexts : (elements.map compact).map String.toList =
        elements.map fun j => j.compact.toList := by rw [List.map_map, Function.comp_def]
    rw [← htexts, compact, compactElements_eq_map]
    exact toList_compact_list '[' ']' _
  text_object _ members := by
    have htexts : (members.map fun m => quoted m.1 ++ ":" ++ compact m.2).map String.toList =
        members.map (memberText [] fun j => j.compact.toList) := by
      simp [memberText, Function.comp_def]
    rw [← htexts, compact, compactMembers_eq_map]
    exact toList_compact_list '\x7b' '\x7d' _

def indentedLayout : Layout where
  text depth j := (j.pretty depth).toList
  gap depth := (newline depth).toList
  space := [' ']
  isSpace_gap := isSpace_newline
  text_null _ := rfl
  text_number _ n := by rw [pretty, Numeral.decimal, Numeral.toList_text]
  text_string _ _ := by rw [pretty]
  text_array depth elements := by
    have htexts : (elements.map (pretty (depth + 1))).map String.toList =
        elements.map fun j => (j.pretty (depth + 1)).toList := by
      rw [List.map_map, Function.comp_def]
    rw [← htexts, pretty, prettyElements_eq_map]
    exact toList_indented depth '[' ']' _
  text_object depth members := by
    have htexts : (members.map fun m => quoted m.1 ++ ": " ++ pretty (depth + 1) m.2).map
        String.toList = members.map (memberText [' '] fun j => (j.pretty (depth + 1)).toList) := by
      simp [memberText, Function.comp_def]
    rw [← htexts, pretty, prettyMembers_eq_map]
    exact toList_indented depth '\x7b' '\x7d' _

theorem compact_injective : Function.Injective compact := by
  intro i j h
  exact compactLayout.text_injective 0 (congrArg String.toList h)

theorem pretty_injective (depth : Nat) : Function.Injective (pretty depth) := by
  intro i j h
  exact indentedLayout.text_injective depth (congrArg String.toList h)

end Json
end AccessControl
