import AccessControl.Outcome
import AccessControl.Proofs.Guid
import AccessControl.Proofs.Numerals
import AccessControl.Proofs.Text.Parts
import AccessControl.Text.Bytes

/-!
# The grammar of object type identifiers

A text is read as an identifier exactly when it is hexadecimal digits in five groups of fixed widths
with single dashes between them, alone or in one pair of braces. The text form of what is read has
the same digits in lower case, and neither the case nor the braces make a difference.
-/

namespace AccessControl

namespace Hex

variable {cs : List Char} {bytes : List UInt8} {c : Char}

/-- The digits of both cases. -/
def digits : List Char :=
  ['0', '1', '2', '3', '4', '5', '6', '7', '8', '9', 'a', 'b', 'c', 'd', 'e', 'f', 'A', 'B', 'C',
    'D', 'E', 'F']

/-- What a computation finds for each of the digits. -/
theorem forall_mem_digits {P : Char → Prop} [DecidablePred P]
    (h : (digits.all fun c => decide (P c)) = true) : ∀ c ∈ digits, P c := by
  intro c hc
  exact of_decide_eq_true (List.all_eq_true.mp h c hc)

theorem mem_digits_iff : c ∈ digits ↔ ∃ d, Numeral.Digit 16 c d := by
  have hread : ∀ c ∈ digits, (Numeral.digitValue? 16 c).isSome = true :=
    List.all_eq_true.mp (by decide)
  have hwritten : ∀ d < 16, Nat.digitChar d ∈ digits ∧ (Nat.digitChar d).toUpper ∈ digits := by
    decide
  constructor
  · intro hc
    obtain ⟨d, hd⟩ := Option.isSome_iff_exists.mp (hread c hc)
    exact ⟨d, (Numeral.digitValue?_eq_some_iff (Nat.le_refl 16)).mp hd⟩
  · rintro ⟨d, hd, rfl | rfl⟩
    · exact (hwritten d hd).1
    · exact (hwritten d hd).2

/-- The digits as bytes of a text. -/
def digitBytes : List UInt8 := digits.map fun c => UInt8.ofNat c.toNat

theorem utf8EncodeChar_of_digit (h : c ∈ digits) :
    String.utf8EncodeChar c = [UInt8.ofNat c.toNat] := by
  have hencode : ∀ c ∈ digits, String.utf8EncodeChar c = [UInt8.ofNat c.toNat] :=
    forall_mem_digits (by decide)
  exact hencode c h

/-- The last byte of a longer character is no digit. -/
theorem mem_digits_of_bytes (h : ∀ b ∈ String.utf8EncodeChar c, b ∈ digitBytes) : c ∈ digits := by
  have hascii : ∀ d ∈ digits, d.toNat < 256 := forall_mem_digits (by decide)
  have hlow : ∀ b ∈ digitBytes, b.toNat < 128 :=
    List.forall_mem_map.mpr (forall_mem_digits (by decide))
  have hlast : ∀ v : Nat, UInt8.ofNat (v % 64 + 128) ∉ digitBytes := by
    intro v hv
    have hlt : v % 64 + 128 < 256 := by omega
    have hbyte : (UInt8.ofNat (v % 64 + 128)).toNat = v % 64 + 128 := UInt8.toNat_ofNat_of_lt' hlt
    have hdigit := hlow _ hv
    omega
  unfold String.utf8EncodeChar at h
  dsimp only at h
  split_ifs at h with hone
  · obtain ⟨d, hd, hbyte⟩ := List.mem_map.mp (h _ List.mem_cons_self)
    have hlt : c.val.toNat < 256 := by omega
    have hcode := congrArg UInt8.toNat hbyte
    rw [UInt8.toNat_ofNat_of_lt' (hascii d hd), UInt8.toNat_ofNat_of_lt' hlt] at hcode
    rwa [← Char.toNat_inj.mp hcode]
  all_goals exact absurd (h _ (by simp)) (hlast c.val.toNat)

/-- In lower case a digit is the one that is written, whichever case it had. -/
theorem toLower_digitChar {d : Nat} (hd : d < 16) :
    (Nat.digitChar d).toLower = Nat.digitChar d ∧
      (Nat.digitChar d).toUpper.toLower = Nat.digitChar d := by
  revert d
  decide

theorem toLower_of_digit {d : Nat} (h : Numeral.Digit 16 c d) : c.toLower = Nat.digitChar d := by
  obtain ⟨hd, rfl | rfl⟩ := h
  · exact (toLower_digitChar hd).1
  · exact (toLower_digitChar hd).2

theorem pair_ofNat {high low : Nat} (hhigh : high < 16) (hlow : low < 16) :
    pair (UInt8.ofNat (16 * high + low)) = [Nat.digitChar high, Nat.digitChar low] := by
  have hlt : 16 * high + low < 256 := by omega
  have hbyte : (UInt8.ofNat (16 * high + low)).toNat = 16 * high + low :=
    UInt8.toNat_ofNat_of_lt' hlt
  have hdiv : (16 * high + low) / 16 = high := by omega
  have hmod : (16 * high + low) % 16 = low := by omega
  rw [pair, hbyte, hdiv, hmod]

/-- Only digits are read, and they are written again in lower case. -/
theorem encode_of_decode? (h : decode? cs = some bytes) :
    (∀ c ∈ cs, c ∈ digits) ∧ encode bytes = cs.map Char.toLower := by
  induction cs using decode?.induct generalizing bytes with
  | case1 =>
    cases h
    exact ⟨List.forall_mem_nil _, rfl⟩
  | case2 => cases h
  | case3 high low rest ih =>
    simp only [decode?, Option.bind_eq_bind, Option.bind_eq_some_iff] at h
    obtain ⟨d, hhigh, e, hlow, tail, htail, h⟩ := h
    cases h
    obtain ⟨hdigits, hencode⟩ := ih htail
    rw [Numeral.digitValue?_eq_some_iff (Nat.le_refl 16)] at hhigh hlow
    constructor
    · exact List.forall_mem_cons.mpr ⟨mem_digits_iff.mpr ⟨d, hhigh⟩,
        List.forall_mem_cons.mpr ⟨mem_digits_iff.mpr ⟨e, hlow⟩, hdigits⟩⟩
    · rw [encode, List.flatMap_cons, pair_ofNat hhigh.1 hlow.1, List.map_cons, List.map_cons,
        toLower_of_digit hhigh, toLower_of_digit hlow, ← hencode]
      rfl

theorem exists_decode? {n : Nat} (h : ∀ c ∈ cs, c ∈ digits) (hlength : cs.length = 2 * n) :
    ∃ bytes, decode? cs = some bytes := by
  induction cs using decode?.induct generalizing n with
  | case1 => exact ⟨[], rfl⟩
  | case2 c =>
    rw [List.length_singleton] at hlength
    omega
  | case3 high low rest ih =>
    obtain ⟨hhigh, hlow, hrest⟩ : high ∈ digits ∧ low ∈ digits ∧ ∀ c ∈ rest, c ∈ digits := by
      simpa using h
    obtain ⟨d, hhigh⟩ := mem_digits_iff.mp hhigh
    obtain ⟨e, hlow⟩ := mem_digits_iff.mp hlow
    have hshorter : rest.length = 2 * (n - 1) := by
      rw [List.length_cons, List.length_cons] at hlength
      omega
    obtain ⟨bytes, hbytes⟩ := ih hrest hshorter
    refine ⟨UInt8.ofNat (16 * d + e) :: bytes, ?_⟩
    rw [← Numeral.digitValue?_eq_some_iff (Nat.le_refl 16)] at hhigh hlow
    simp [decode?, hhigh, hlow, hbytes]

end Hex

namespace Guid

variable {cs body : List Char} {guid : Guid}

/-! ## Groups -/

/-- Hexadecimal digits in five groups, with a dash between any two that stand side by side. -/
def Grouped (body : List Char) : Prop :=
  ∃ groups, body = ['-'].intercalate groups ∧ groups.map List.length = [8, 4, 4, 4, 12] ∧
    ∀ group ∈ groups, ∀ c ∈ group, c ∈ Hex.digits

/-- Groups that were put together are cut apart at their widths. -/
theorem cut_flatten (groups : List (List Char)) :
    cut (groups.map List.length) groups.flatten = groups := by
  induction groups with
  | nil => rfl
  | cons group groups ih =>
    rw [List.map_cons, List.flatten_cons, cut, List.take_left, List.drop_left, ih]

theorem splitOn_of_groups {groups : List (List Char)}
    (hwidths : groups.map List.length = [8, 4, 4, 4, 12])
    (hdigits : ∀ group ∈ groups, ∀ c ∈ group, c ∈ Hex.digits) :
    (['-'].intercalate groups).splitOn '-' = groups := by
  have hdash : '-' ∉ Hex.digits := by decide
  apply List.splitOn_intercalate
  · intro group hgroup hmem
    exact hdash (hdigits group hgroup _ hmem)
  · rintro rfl
    cases hwidths

/-- Groups of these widths are the digits of sixteen bytes. -/
theorem exists_ofChars? (h : Grouped (withoutBraces cs)) : ∃ guid, ofChars? cs = some guid := by
  obtain ⟨groups, hbody, hwidths, hdigits⟩ := h
  have hlength : groups.flatten.length = 2 * 16 := by
    rw [List.length_flatten, hwidths]
    rfl
  have hall : ∀ c ∈ groups.flatten, c ∈ Hex.digits := by
    intro c hc
    obtain ⟨group, hgroup, hc⟩ := List.mem_flatten.mp hc
    exact hdigits group hgroup c hc
  obtain ⟨bytes, hbytes⟩ := Hex.exists_decode? hall hlength
  have hsixteen : bytes.length = 16 := by
    obtain ⟨-, hencode⟩ := Hex.encode_of_decode? hbytes
    have hdouble := Hex.length_encode bytes
    rw [hencode, List.length_map] at hdouble
    omega
  refine ⟨⟨bytes, hsixteen⟩, ?_⟩
  simp [ofChars?, hbody, splitOn_of_groups hwidths hdigits, hwidths, groupWidths, hbytes, hsixteen]

theorem chars_of_encode {groups : List (List Char)} (hwidths : groups.map List.length = groupWidths)
    (hencode : Hex.encode guid.bytes = groups.flatten.map Char.toLower) :
    guid.chars = (['-'].intercalate groups).map Char.toLower := by
  have hlower : (groups.map (List.map Char.toLower)).map List.length = groupWidths := by
    rw [List.map_map, ← hwidths]
    simp [Function.comp_def]
  calc
    guid.chars = ['-'].intercalate
        (cut groupWidths (groups.map (List.map Char.toLower)).flatten) := by
      rw [chars, hencode, List.map_flatten]
    _ = ['-'].intercalate (groups.map (List.map Char.toLower)) := by
      rw [← hlower, cut_flatten]
    _ = (['-'].intercalate groups).map Char.toLower :=
      (Text.map_intercalate Char.toLower ['-'] groups).symm

theorem grouped_of_ofChars? (h : ofChars? cs = some guid) :
    Grouped (withoutBraces cs) ∧ guid.chars = (withoutBraces cs).map Char.toLower := by
  unfold ofChars? at h
  dsimp only at h
  split_ifs at h with hwidths
  obtain ⟨bytes, hbytes, h⟩ := Option.bind_eq_some_iff.mp h
  split_ifs at h with hsixteen
  cases h
  obtain ⟨hdigits, hencode⟩ := Hex.encode_of_decode? hbytes
  constructor
  · refine ⟨_, (List.intercalate_splitOn '-').symm, hwidths, ?_⟩
    intro group hgroup c hc
    exact hdigits c (List.mem_flatten.mpr ⟨group, hgroup, hc⟩)
  · rw [chars_of_encode hwidths hencode, List.intercalate_splitOn]

/-! ## Braces -/

/-- The text is this body, alone or in one pair of braces. -/
def Encloses (t body : String) : Prop := t = body ∨ t = "\x7b" ++ body ++ "\x7d"

theorem Grouped.brace_not_mem (h : Grouped body) : '\x7b' ∉ body := by
  obtain ⟨groups, rfl, -, hdigits⟩ := h
  have hbrace : ∀ c ∈ ['-'].intercalate groups, c ≠ '\x7b' := by
    apply Text.forall_mem_intercalate
    · exact List.forall_mem_singleton.mpr (by decide)
    · rintro group hgroup _ hc rfl
      exact absurd (hdigits group hgroup _ hc) (by decide)
  intro hmem
  exact hbrace _ hmem rfl

theorem withoutBraces_eq_iff (h : Grouped body) :
    withoutBraces cs = body ↔ cs = body ∨ cs = '\x7b' :: (body ++ ['\x7d']) := by
  constructor
  · intro hbody
    unfold withoutBraces at hbody
    split at hbody
    · next rest =>
      split_ifs at hbody with hlast
      · right
        rw [← hbody, List.dropLast_append_getLast? _ hlast]
      · exact .inl hbody
    · exact .inl hbody
  · rintro (rfl | rfl)
    · exact withoutBraces_of_not_mem h.brace_not_mem
    · simp [withoutBraces]

theorem encloses_iff {t body : String} (h : Grouped body.toList) :
    Encloses t body ↔ withoutBraces t.toList = body.toList := by
  rw [withoutBraces_eq_iff h, Encloses, ← String.toList_inj, ← String.toList_inj]
  simp

/-- Grouped digits are found in a text as what is left of it without braces. -/
theorem exists_encloses_iff (t : String) (holds : List Char → Prop) :
    (∃ body : String, Encloses t body ∧ Grouped body.toList ∧ holds body.toList) ↔
      Grouped (withoutBraces t.toList) ∧ holds (withoutBraces t.toList) := by
  constructor
  · rintro ⟨body, hencloses, hgrouped, hholds⟩
    rw [(encloses_iff hgrouped).mp hencloses]
    exact ⟨hgrouped, hholds⟩
  · intro h
    have hbody : (String.ofList (withoutBraces t.toList)).toList = withoutBraces t.toList :=
      String.toList_ofList
    rw [← hbody] at h
    exact ⟨_, (encloses_iff h.1).mpr hbody.symm, h⟩

theorem parse_eq_ok_iff_ofChars? {t : String} :
    parse t = .ok guid ↔ ofChars? t.toList = some guid := by
  unfold parse
  cases ofChars? t.toList <;> simp

/-- What is read is grouped, and it is written as the same digits in lower case. -/
theorem ofChars?_eq_some_iff : ofChars? cs = some guid ↔
    Grouped (withoutBraces cs) ∧ guid.chars = (withoutBraces cs).map Char.toLower := by
  constructor
  · exact grouped_of_ofChars?
  · rintro ⟨hgrouped, hchars⟩
    obtain ⟨guid', h⟩ := exists_ofChars? hgrouped
    obtain ⟨-, hchars'⟩ := grouped_of_ofChars? h
    have hsame : guid'.text = guid.text := congrArg String.ofList (hchars'.trans hchars.symm)
    rw [h, text_injective hsame]

theorem toList_toLower (t : String) : t.toLower.toList = t.toList.map Char.toLower :=
  String.toList_map

theorem toList_toUpper (t : String) : t.toUpper.toList = t.toList.map Char.toUpper :=
  String.toList_map

theorem parse_eq_ok_iff {t : String} : parse t = .ok guid ↔
    ∃ body : String, Encloses t body ∧ Grouped body.toList ∧ guid.text = body.toLower := by
  have htext : ∀ body : String, guid.text = body.toLower ↔
      guid.chars = body.toList.map Char.toLower := by
    intro body
    rw [← String.toList_inj, text, String.toList_ofList, toList_toLower]
  simp only [htext]
  rw [parse_eq_ok_iff_ofChars?, ofChars?_eq_some_iff]
  exact (exists_encloses_iff t fun cs => guid.chars = cs.map Char.toLower).symm

theorem exists_parse_iff {t : String} :
    (∃ guid, parse t = .ok guid) ↔ Grouped (withoutBraces t.toList) := by
  simp only [parse_eq_ok_iff_ofChars?]
  constructor
  · rintro ⟨guid, h⟩
    exact (grouped_of_ofChars? h).1
  · exact exists_ofChars?

/-! ## Counting bytes -/

/-- What stands between the dashes, as bytes. -/
def byteGroups (body : List Char) : List (List UInt8) :=
  (body.splitOn '-').map fun group => Text.utf8 (String.ofList group)

theorem length_utf8_of_digits {group : List Char} (h : ∀ c ∈ group, c ∈ Hex.digits) :
    (Text.utf8 (String.ofList group)).length = group.length := by
  induction group with
  | nil => rfl
  | cons c group ih =>
    obtain ⟨hc, hgroup⟩ := List.forall_mem_cons.mp h
    have hrest := ih hgroup
    simp only [Text.utf8, String.toList_ofList] at hrest ⊢
    rw [List.flatMap_cons, Hex.utf8EncodeChar_of_digit hc, List.singleton_append,
      List.length_cons, List.length_cons, hrest]

theorem mem_digitBytes_iff {group : List Char} :
    (∀ b ∈ Text.utf8 (String.ofList group), b ∈ Hex.digitBytes) ↔ ∀ c ∈ group, c ∈ Hex.digits := by
  have hbytes : ∀ c ∈ Hex.digits, UInt8.ofNat c.toNat ∈ Hex.digitBytes :=
    fun c hc => List.mem_map_of_mem hc
  simp only [Text.utf8, String.toList_ofList, List.mem_flatMap, forall_exists_index, and_imp]
  constructor
  · intro h c hc
    exact Hex.mem_digits_of_bytes fun b hb => h b c hc hb
  · intro h b c hc hb
    rw [Hex.utf8EncodeChar_of_digit (h c hc), List.mem_singleton] at hb
    exact hb ▸ hbytes c (h c hc)

/-- It is the same to have the widths counted in bytes and to have every byte a digit. -/
theorem grouped_iff_byteGroups :
    Grouped body ↔ (byteGroups body).map List.length = [8, 4, 4, 4, 12] ∧
      ∀ bytes ∈ byteGroups body, ∀ b ∈ bytes, b ∈ Hex.digitBytes := by
  simp only [byteGroups, List.map_map, List.forall_mem_map, mem_digitBytes_iff]
  constructor
  · rintro ⟨groups, rfl, hwidths, hdigits⟩
    rw [splitOn_of_groups hwidths hdigits]
    refine ⟨?_, hdigits⟩
    rw [← hwidths]
    exact List.map_congr_left fun group hgroup => length_utf8_of_digits (hdigits group hgroup)
  · rintro ⟨hwidths, hdigits⟩
    refine ⟨body.splitOn '-', (List.intercalate_splitOn '-').symm, ?_, hdigits⟩
    rw [← hwidths]
    exact List.map_congr_left fun group hgroup =>
      (length_utf8_of_digits (hdigits group hgroup)).symm

/-! ## Spellings of an identifier -/

theorem grouped_chars (guid : Guid) : Grouped guid.chars := by
  have hlength : (Hex.encode guid.bytes).length = 32 := by
    rw [Hex.length_encode, guid.length_bytes]
  refine ⟨cut groupWidths (Hex.encode guid.bytes), rfl, map_length_cut hlength, ?_⟩
  intro group hgroup c hc
  obtain ⟨d, hd, rfl⟩ := exists_digit_of_mem_group hgroup c hc
  exact Hex.mem_digits_iff.mpr ⟨d, hd, .inl rfl⟩

theorem Grouped.map_toUpper (h : Grouped body) : Grouped (body.map Char.toUpper) := by
  have hupper : ∀ c ∈ Hex.digits, c.toUpper ∈ Hex.digits := Hex.forall_mem_digits (by decide)
  obtain ⟨groups, rfl, hwidths, hdigits⟩ := h
  refine ⟨groups.map (List.map Char.toUpper), Text.map_intercalate _ _ _, ?_, ?_⟩
  · rw [List.map_map, ← hwidths]
    simp [Function.comp_def]
  · simp only [List.forall_mem_map]
    exact fun group hgroup c hc => hupper c (hdigits group hgroup c hc)

theorem map_toLower_chars (guid : Guid) : guid.chars.map Char.toLower = guid.chars ∧
    (guid.chars.map Char.toUpper).map Char.toLower = guid.chars := by
  have hchar : ∀ c ∈ guid.chars, c.toLower = c ∧ c.toUpper.toLower = c := by
    intro c hc
    rcases dash_or_digit_of_mem_chars guid c hc with rfl | ⟨d, hd, rfl⟩
    · decide
    · exact Hex.toLower_digitChar hd
  constructor
  · exact (List.map_congr_left fun c hc => (hchar c hc).1).trans (List.map_id _)
  · rw [List.map_map]
    exact (List.map_congr_left fun c hc => (hchar c hc).2).trans (List.map_id _)

/-- The text form in either case, with braces or without, is read as the identifier. -/
theorem parse_of_encloses {t body : String} (hbody : body = guid.text ∨ body = guid.text.toUpper)
    (h : Encloses t body) : parse t = .ok guid := by
  obtain ⟨hlower, hupper⟩ := map_toLower_chars guid
  have hgrouped : Grouped body.toList ∧ guid.text = body.toLower := by
    rw [← String.toList_inj, toList_toLower]
    rcases hbody with rfl | rfl
    · rw [text, String.toList_ofList]
      exact ⟨grouped_chars guid, hlower.symm⟩
    · rw [toList_toUpper, text, String.toList_ofList]
      exact ⟨(grouped_chars guid).map_toUpper, hupper.symm⟩
  exact parse_eq_ok_iff.mpr ⟨body, h, hgrouped⟩

/-- The text form and the wire form of identifiers. A text is read exactly when it is grouped digits
of any case, alone or in one pair of braces; whether the widths are counted in characters or in
bytes is the same. What is read has the same digits in lower case for its text form, whose spellings
are all read back, and the order of the wire is undone by reading from the wire. -/
theorem parse_iff_grouped :
    (∀ t, (∃ guid, parse t = .ok guid) ↔
        ∃ body : String, Encloses t body ∧ Grouped body.toList) ∧
      (∀ t guid, parse t = .ok guid ↔
        ∃ body : String, Encloses t body ∧ Grouped body.toList ∧ guid.text = body.toLower) ∧
      (∀ t, (∃ guid, parse t = .ok guid) ↔
        (byteGroups (withoutBraces t.toList)).map List.length = [8, 4, 4, 4, 12] ∧
          ∀ bytes ∈ byteGroups (withoutBraces t.toList), ∀ b ∈ bytes, b ∈ Hex.digitBytes) ∧
      (∀ guid t body, (body = guid.text ∨ body = guid.text.toUpper) → Encloses t body →
        parse t = .ok guid) ∧
      (∀ guid, ofWire guid.toWire guid.length_toWire = guid) ∧
      ∀ bytes (h : bytes.length = 16), (ofWire bytes h).toWire = bytes ∧
        (parse (ofWire bytes h).text).map toWire = .ok bytes := by
  refine ⟨?_, fun t guid => parse_eq_ok_iff, ?_, ?_, ofWire_toWire, ?_⟩
  · intro t
    rw [exists_parse_iff]
    simpa using (exists_encloses_iff t fun _ => True).symm
  · intro t
    rw [exists_parse_iff, grouped_iff_byteGroups]
  · intro guid t body
    exact parse_of_encloses
  · intro bytes h
    refine ⟨toWire_ofWire bytes h, ?_⟩
    rw [parse_of_encloses (.inl rfl) (.inl rfl), ok_map, toWire_ofWire]

/-- An identifier as it stands on the wire. -/
def userClass : List UInt8 :=
  [0xBA, 0x7A, 0x96, 0xBF, 0xE6, 0x0D, 0xD0, 0x11, 0xA2, 0x85, 0x00, 0xAA, 0x00, 0x30, 0x49, 0xE2]

theorem parse_iff_grouped_userClass :
    parse "\x7bBF967ABA-0DE6-11D0-A285-00AA003049E2\x7d" = .ok (ofWire userClass rfl) ∧
      (parse (ofWire userClass rfl).text).map toWire = .ok userClass ∧
      ¬ ∃ guid, parse "+F967ABA-0DE6-11D0-A285-00AA003049E2" = .ok guid := by
  obtain ⟨-, -, hbytes, hspelled, -, hwire⟩ := parse_iff_grouped
  have hupper : "BF967ABA-0DE6-11D0-A285-00AA003049E2" = (ofWire userClass rfl).text.toUpper := by
    rw [← String.toList_inj, toList_toUpper]
    decide
  refine ⟨hspelled _ _ _ (.inr hupper) (.inr rfl), (hwire userClass rfl).2, ?_⟩
  rw [hbytes]
  decide

end Guid
end AccessControl
