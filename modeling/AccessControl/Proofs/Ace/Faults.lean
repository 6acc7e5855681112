import AccessControl.Proofs.Ace.Grammar
import AccessControl.Proofs.Spans

/-!
# Faults of entries

Which error bytes that are no entry get. The fields are judged in the order of their places, so
the error blames the first one that does not end inside its extent; the type comes before the
other fields of the header, the declared size behind them, and slack behind everything. Told from
the bytes alone, the first fault is the error, with every number in it.
-/

namespace AccessControl

namespace Ace
namespace Grammar

open Cursor (within FailsWith)

variable {bytes : List UInt8} {bound position : Nat} {type : AceType}

/-! ## Fields of an entry -/

/-- An identifier of the scope, where its bit is set. -/
def identifierSpans (bytes : List UInt8) (bit : Nat) (field : Field) (start : Nat) : List Span :=
  if (objectWord bytes).testBit bit then [⟨field, start, 16⟩] else []

/-- Object flags and the identifiers that they announce, for the object types. -/
def scopeSpans (bytes : List UInt8) : List Span :=
  if code bytes ∈ Layout.objectCodes then
    ⟨.objectFlags, 8, 4⟩ :: (identifierSpans bytes 0 .objectType 12 ++
      identifierSpans bytes 1 .inheritedObjectType (inheritedStart bytes))
  else []

/-- The fields before the trustee, inside the declared size. -/
def spans (bytes : List UInt8) : List Span :=
  ⟨.aceHeader, 0, 4⟩ :: ⟨.accessMask, 4, 4⟩ :: scopeSpans bytes

/-- The bytes that the identifier at a position asks for: those of its header while that is not
all there, and then as many as it announces. -/
def sidNeeded (bytes : List UInt8) (bound position : Nat) : Nat :=
  if bound - position < 8 then 8 else 8 + 4 * Sid.countAt bytes position

def sidFault (bytes : List UInt8) (bound position : Nat) : Option DecodeError :=
  if bound - position < sidNeeded bytes bound position then
    some (.sid position ⟨sidNeeded bytes bound position, bound - position⟩)
  else none

theorem not_lt_sidNeeded_iff (hposition : position ≤ bound) :
    ¬ bound - position < sidNeeded bytes bound position ↔
      position + (8 + 4 * Sid.countAt bytes position) ≤ bound := by
  unfold sidNeeded
  split_ifs
  · omega
  · omega

theorem neededLength_within (hbound : bound ≤ bytes.length) :
    Sid.neededLength (within bytes bound position).remaining = sidNeeded bytes bound position := by
  rw [Sid.neededLength, sidNeeded, Cursor.length_remaining_within hbound, Sid.headerLength]
  split_ifs with hheader
  · rfl
  · exact announcedLength_within (by omega)

theorem readTrustee_failsWith (hbound : bound ≤ bytes.length) :
    FailsWith readTrustee bytes bound position (sidFault bytes bound position) := by
  intro hposition e
  by_cases hlack : bound - position < sidNeeded bytes bound position
  · have hsid : Sid.decode (within bytes bound position).remaining =
        .error ⟨sidNeeded bytes bound position, bound - position⟩ := by
      rw [Sid.decode_eq_error_iff, neededLength_within hbound,
        Cursor.length_remaining_within hbound]
      exact ⟨hlack, rfl⟩
    have hread : readTrustee (within bytes bound position) =
        .error (.sid position ⟨sidNeeded bytes bound position, bound - position⟩) := by
      rw [readTrustee, hsid]
      rfl
    rw [sidFault, if_pos hlack, hread, Option.some.injEq, Except.error.injEq]
  · obtain ⟨sid, hread⟩ :=
      (readTrustee_covers hbound).total ((not_lt_sidNeeded_iff hposition).mp hlack)
    rw [sidFault, if_neg hlack, hread]
    simp

theorem readIdentifier_failsWith (hbound : bound ≤ bytes.length) (bit : Nat) (field : Field) :
    FailsWith (readIdentifier ((objectWord bytes).testBit bit) field) bytes bound position
      (Span.fault bound (identifierSpans bytes bit field position)) := by
  unfold identifierSpans
  cases (objectWord bytes).testBit bit with
  | true => exact (Cursor.guid_failsWith hbound field).map _
  | false => exact FailsWith.ok _

theorem readObjectScope_failsWith (hobject : code bytes ∈ Layout.objectCodes)
    (hbound : bound ≤ bytes.length) :
    FailsWith readObjectScope bytes bound 8 (Span.fault bound (scopeSpans bytes)) := by
  rw [scopeSpans, if_pos hobject, Span.fault_cons, Span.fault_append]
  refine FailsWith.bind ((Cursor.take_failsWith hbound 4 _).map _)
    (Cursor.longLittle_covers hbound _) fun word hword => ?_
  have hfirst : (⟨word.toBitVec⟩ : ObjectFlags).contains .objectTypePresent =
      (objectWord bytes).testBit 0 := contains_eq_testBit hword .objectTypePresent
  have hsecond : (⟨word.toBitVec⟩ : ObjectFlags).contains .inheritedObjectTypePresent =
      (objectWord bytes).testBit 1 := contains_eq_testBit hword .inheritedObjectTypePresent
  dsimp only
  rw [hfirst, hsecond]
  refine FailsWith.bind (readIdentifier_failsWith hbound 0 _) (readIdentifier_covers hbound _ _)
    fun objectType _ => ?_
  dsimp only
  exact FailsWith.bind_total (readIdentifier_failsWith hbound 1 _) fun _ => ⟨_, rfl⟩

theorem readScope_failsWith (htype : type.code = code bytes) (hbound : bound ≤ bytes.length) :
    FailsWith (fun c => (readScope type c).result) bytes bound 8
      (Span.fault bound (scopeSpans bytes)) := by
  simp only [result_readScope, ← mem_objectCodes_iff, htype]
  split_ifs with hobject
  · exact readObjectScope_failsWith hobject hbound
  · rw [scopeSpans, if_neg hobject]
    exact FailsWith.ok _

theorem readFields_failsWith (htype : type.code = code bytes) (hbound : bound ≤ bytes.length) :
    FailsWith (readFields type) bytes bound 4
      ((Span.fault bound (⟨.accessMask, 4, 4⟩ :: scopeSpans bytes)).or
        (sidFault bytes bound (trusteeStart bytes))) := by
  rw [Span.fault_cons, Option.or_assoc]
  refine FailsWith.bind ((Cursor.take_failsWith hbound 4 _).map _)
    (Cursor.longBig_covers hbound _) fun mask _ => ?_
  dsimp only
  refine FailsWith.bind (readScope_failsWith htype hbound) (readScope_covers htype hbound)
    fun scope _ => ?_
  dsimp only
  exact FailsWith.bind_total (readTrustee_failsWith hbound) fun _ => ⟨_, rfl⟩

/-! ## Faults of an entry -/

/-- Slack, where the policy has no room for it. -/
def slackFault (policy : SizePolicy) (bytes : List UInt8) : Option DecodeError :=
  if policy = .strict ∧ code bytes ∉ dataCodes ∧ fieldsEnd bytes ≠ declaredSize bytes then
    some (.sizeMismatch (declaredSize bytes) (fieldsEnd bytes))
  else none

theorem readTail_failsWith {size : UInt16} (htype : type.code = code bytes)
    (hsize : size.toNat = declaredSize bytes) (policy : SizePolicy) :
    FailsWith (fun c => (readTail policy type size.toNat c).result) bytes bound (fieldsEnd bytes)
      (slackFault policy bytes) := by
  intro _ e
  show (readTail policy type size.toNat (within bytes bound _)).result = .error e ↔ _
  have hdata : code bytes ∈ dataCodes ↔ type.carriesData = true := by
    rw [← htype, mem_dataCodes_iff]
  simp only [hsize, readTail, slackFault, hdata]
  cases type.carriesData with
  | true => simp
  | false =>
    by_cases hslack : policy = .strict ∧ fieldsEnd bytes ≠ declaredSize bytes
    · simp [within, hslack]
    · simp [within, hslack]

/-- What is wrong behind a header that declares no more than there is. -/
def bodyFault (policy : SizePolicy) (bytes : List UInt8) : Option DecodeError :=
  (Span.fault (declaredSize bytes) (spans bytes)).or
    ((sidFault bytes (declaredSize bytes) (trusteeStart bytes)).or (slackFault policy bytes))

theorem readBody_error_iff {policy : SizePolicy} {flags : AceFlags} {size : UInt16}
    {e : DecodeError} (htype : type.code = code bytes) (hsize : size.toNat = declaredSize bytes)
    (hbound : declaredSize bytes ≤ bytes.length) :
    (readBody policy type flags size (bytes.take size.toNat)).result = .error e ↔
      bodyFault policy bytes = some e := by
  have hbody : FailsWith (fun c => c.skip headerLength .aceHeader >>= fun c =>
      readFields type c >>= fun found =>
        (readTail policy type size.toNat found.2).result.map
          (Ace.mk type flags found.1.1 found.1.2.1 found.1.2.2 · size)) bytes
      (declaredSize bytes) 0 (bodyFault policy bytes) := by
    rw [bodyFault, spans, Span.fault_cons, Option.or_assoc, ← @Option.or_assoc _ _ (sidFault ..)]
    refine Cursor.skip_failsWith hbound (FailsWith.bind (readFields_failsWith htype hbound)
      (readFields_covers htype hbound) fun _ _ => ?_)
    rw [Nat.zero_add, headerLength, fieldsEnd_eq]
    exact (readTail_failsWith htype hsize policy).map _
  rw [result_readBody, bind_assoc, hsize]
  rw [hsize] at hbody
  exact hbody (Nat.zero_le _) e

/-- The fields of the header behind the type, in all the bytes. -/
def headerSpans : List Span := [⟨.aceFlags, 1, 1⟩, ⟨.aceSize, 2, 2⟩]

def unknownFault (bytes : List UInt8) : Option DecodeError :=
  if code bytes < 20 then none else some (.unknownAceType (code bytes))

def overrunFault (bytes : List UInt8) : Option DecodeError :=
  if declaredSize bytes ≤ bytes.length then none
  else some (.sizeOverrun 0 (declaredSize bytes) bytes.length)

/-- What is wrong with a header: the type is judged before the fields behind it are read. -/
def headerFault (bytes : List UInt8) : Option DecodeError :=
  (Span.fault bytes.length [⟨.aceType, 0, 1⟩]).or
    ((unknownFault bytes).or ((Span.fault bytes.length headerSpans).or (overrunFault bytes)))

/-- The fields of the header behind the type. -/
def readHeaderFields (bytes : List UInt8) (type : AceType) (c : Cursor) :
    Except DecodeError (AceType × AceFlags × UInt16) := do
  let (flags, c) ← c.byte .aceFlags
  let (size, _) ← c.wordLittle .aceSize
  if reaches size.toNat bytes then return (type, ⟨flags.toBitVec⟩, size)
  else .error (.sizeOverrun 0 size.toNat bytes.length)

theorem readHeaderFields_failsWith (bytes : List UInt8) (type : AceType) :
    FailsWith (readHeaderFields bytes type) bytes bytes.length 1
      ((Span.fault bytes.length headerSpans).or (overrunFault bytes)) := by
  have hbound : bytes.length ≤ bytes.length := Nat.le_refl _
  rw [headerSpans, Span.fault_cons, Option.or_assoc]
  refine FailsWith.bind ((Cursor.take_failsWith hbound 1 _).map _)
    (Cursor.byte_covers hbound _) fun flags _ => ?_
  dsimp only
  refine FailsWith.bind ((Cursor.take_failsWith hbound 2 _).map _)
    (Cursor.wordLittle_covers hbound _) fun size hsize => ?_
  have hsize : size.toNat = declaredSize bytes := hsize
  simp only [hsize, reaches_eq_decide, decide_eq_true_eq, overrunFault]
  split_ifs
  · exact FailsWith.ok _
  · exact FailsWith.error _

/-- The type is judged first, and alone. -/
theorem readHeader_eq_bind (bytes : List UInt8) :
    readHeader bytes = (Cursor.ofBytes bytes).byte .aceType >>= fun found =>
      (AceType.ofCode? found.1).elim (.error (.unknownAceType found.1))
        (readHeaderFields bytes · found.2) := by
  refine bind_congr fun found => ?_
  obtain ⟨code, c⟩ := found
  dsimp only
  cases AceType.ofCode? code with
  | none => rfl
  | some type => rfl

theorem readHeader_error_iff {e : DecodeError} :
    readHeader bytes = .error e ↔ headerFault bytes = some e := by
  have hbound : bytes.length ≤ bytes.length := Nat.le_refl _
  have hheader : FailsWith (fun c => c.byte .aceType >>= fun found =>
      (AceType.ofCode? found.1).elim (.error (.unknownAceType found.1))
        (readHeaderFields bytes · found.2)) bytes bytes.length 0 (headerFault bytes) := by
    refine FailsWith.bind ((Cursor.take_failsWith hbound 1 _).map _)
      (Cursor.byte_covers hbound _) fun read hread => ?_
    dsimp only
    rw [show read = code bytes from hread, unknownFault]
    split_ifs with hknown
    · obtain ⟨type, htype⟩ := AceType.exists_code_eq_iff.mpr hknown
      rw [AceType.ofCode?_eq_some_iff.mpr htype, Option.none_or]
      exact readHeaderFields_failsWith bytes type
    · have hnone : AceType.ofCode? (code bytes) = none := by
        rw [Option.eq_none_iff_forall_ne_some]
        intro type htype
        exact hknown (AceType.exists_code_eq_iff.mp ⟨type, AceType.ofCode?_eq_some_iff.mp htype⟩)
      rw [hnone, Option.some_or]
      exact FailsWith.error _
  rw [readHeader_eq_bind, ← Cursor.within_length_zero]
  exact hheader (Nat.zero_le _) e

/-! ## The first fault is the error -/

/-- The header is there, of a known type, and declares no more than there is. -/
structure HeaderStands (bytes : List UInt8) : Prop where
  header : 4 ≤ bytes.length
  known : code bytes < 20
  size_le : declaredSize bytes ≤ bytes.length

/-- What is wrong with bytes that are no entry. Each of the faults counts only where those before
it are absent. -/
inductive Fault (options : DecodeOptions) (bytes : List UInt8) : DecodeError → Prop
  | noType (hempty : bytes = []) : Fault options bytes (.truncated .aceType 0 1 0)
  | unknownType (hsome : bytes ≠ []) (hcode : 20 ≤ code bytes) :
      Fault options bytes (.unknownAceType (code bytes))
  | headerField {s : Span} {available : Nat} (hsome : bytes ≠ []) (hknown : code bytes < 20)
      (hshort : bytes.length < 4) (hfirst : Span.firstCut bytes.length headerSpans = some s)
      (hend : s.start + available = bytes.length) (hlack : available < s.length) :
      Fault options bytes (.truncated s.field s.start s.length available)
  | overrun (hheader : 4 ≤ bytes.length) (hknown : code bytes < 20)
      (hlack : bytes.length < declaredSize bytes) :
      Fault options bytes (.sizeOverrun 0 (declaredSize bytes) bytes.length)
  | field {s : Span} {available : Nat} (hstands : HeaderStands bytes)
      (hfirst : Span.firstCut (declaredSize bytes) (spans bytes) = some s)
      (hend : s.start + available = declaredSize bytes) (hlack : available < s.length) :
      Fault options bytes (.truncated s.field s.start s.length available)
  | trustee {needed available : Nat} (hstands : HeaderStands bytes)
      (hfields : Span.firstCut (declaredSize bytes) (spans bytes) = none)
      (hend : trusteeStart bytes + available = declaredSize bytes)
      (hneeded : needed = if available < 8 then 8
        else 8 + 4 * (bytes.getD (trusteeStart bytes + 1) 0).toNat)
      (hlack : available < needed) :
      Fault options bytes (.sid (trusteeStart bytes) ⟨needed, available⟩)
  | slack (hstands : HeaderStands bytes) (hstrict : options.sizePolicy = .strict)
      (hdata : code bytes ∉ dataCodes) (hend : fieldsEnd bytes < declaredSize bytes) :
      Fault options bytes (.sizeMismatch (declaredSize bytes) (fieldsEnd bytes))

variable {options : DecodeOptions} {e : DecodeError}

theorem exists_readHeader_iff :
    (∃ type flags size, readHeader bytes = .ok (type, flags, size)) ↔ HeaderStands bytes := by
  simp only [readHeader_iff]
  constructor
  · rintro ⟨type, flags, size, hheader, htype, -, -, hsize⟩
    exact ⟨hheader, AceType.exists_code_eq_iff.mp ⟨type, htype⟩, hsize⟩
  · rintro ⟨hheader, hknown, hsize⟩
    obtain ⟨type, htype⟩ := AceType.exists_code_eq_iff.mpr hknown
    have hword : (UInt16.ofNat (declaredSize bytes)).toNat = declaredSize bytes :=
      ByteOrder.toNat_word (length_stretch hheader)
    exact ⟨type, ⟨(bytes.getD 1 0).toBitVec⟩, _, hheader, htype, rfl, hword, hsize⟩

theorem decode_error_iff : decode options bytes = .error e ↔
    headerFault bytes = some e ∨
      HeaderStands bytes ∧ bodyFault options.sizePolicy bytes = some e := by
  rw [decode, read, Traced.result_bind, bind_eq_error_iff, ← readHeader_error_iff]
  refine or_congr Iff.rfl ?_
  rw [← exists_readHeader_iff]
  constructor
  · rintro ⟨⟨type, flags, size⟩, hheader, hbody⟩
    obtain ⟨-, htype, -, hsize, hle⟩ := readHeader_iff.mp hheader
    exact ⟨⟨type, flags, size, hheader⟩, (readBody_error_iff htype hsize hle).mp hbody⟩
  · rintro ⟨⟨type, flags, size, hheader⟩, hbody⟩
    obtain ⟨-, htype, -, hsize, hle⟩ := readHeader_iff.mp hheader
    exact ⟨(type, flags, size), hheader, (readBody_error_iff htype hsize hle).mpr hbody⟩

/-- The fields of the header follow each other, and so do those of the extent. -/
theorem adjoining_headerSpans : Span.Adjoining 1 headerSpans 4 := .cons rfl (.cons rfl (.nil 4))

theorem adjoining_identifierSpans (bytes : List UInt8) (bit : Nat) (field : Field) (start : Nat) :
    Span.Adjoining start (identifierSpans bytes bit field start)
      (start + identifierLength bytes bit) := by
  unfold identifierSpans identifierLength
  split_ifs
  · exact .cons rfl (.nil _)
  · exact .nil _

theorem adjoining_spans (bytes : List UInt8) :
    Span.Adjoining 0 (spans bytes) (trusteeStart bytes) := by
  refine .cons rfl (.cons rfl ?_)
  unfold scopeSpans trusteeStart scopeLength
  split_ifs
  · have hstop : inheritedStart bytes + identifierLength bytes 1 =
        8 + (4 + (identifierLength bytes 0 + identifierLength bytes 1)) := by
      unfold inheritedStart
      omega
    rw [← hstop]
    exact .cons rfl ((adjoining_identifierSpans bytes 0 _ 12).append
      (adjoining_identifierSpans bytes 1 _ (inheritedStart bytes)))
  · exact .nil 8

theorem fault_of_headerFault (h : headerFault bytes = some e) : Fault options bytes e := by
  simp only [headerFault, Option.or_eq_some_iff, Span.fault_eq_none_iff,
    Span.fault_singleton_eq_some_iff] at h
  rcases h with ⟨hempty, rfl⟩ | ⟨htype, h⟩
  · obtain rfl : bytes = [] := List.eq_nil_of_length_eq_zero (Nat.lt_one_iff.mp hempty)
    exact .noType rfl
  have hsome : bytes ≠ [] := by
    rintro rfl
    cases htype
  have hone : 1 ≤ bytes.length := List.length_pos_iff.mpr hsome
  by_cases hknown : code bytes < 20
  · rw [unknownFault, if_pos hknown] at h
    rcases h with h | ⟨-, hfields | ⟨hfields, hsize⟩⟩
    · cases h
    · obtain ⟨s, available, hcut, hend, hlack, rfl⟩ :=
        adjoining_headerSpans.exists_cut hone hfields
      have hshort : bytes.length < 4 := by
        rw [← Nat.not_le, ← adjoining_headerSpans.firstCut_eq_none_iff hone, hcut]
        nofun
      exact .headerField hsome hknown hshort hcut hend hlack
    · have hheader := (adjoining_headerSpans.firstCut_eq_none_iff hone).mp hfields
      unfold overrunFault at hsize
      split_ifs at hsize with hle
      cases hsize
      exact .overrun hheader hknown (Nat.not_le.mp hle)
  · rw [unknownFault, if_neg hknown] at h
    rcases h with h | ⟨h, -⟩
    · cases h
      exact .unknownType hsome (UInt8.not_lt.mp hknown)
    · cases h

theorem fault_of_bodyFault (hstands : HeaderStands bytes)
    (h : bodyFault options.sizePolicy bytes = some e) : Fault options bytes e := by
  have hadjoining := adjoining_spans bytes
  simp only [bodyFault, Option.or_eq_some_iff, Span.fault_eq_none_iff] at h
  rcases h with hfield | ⟨hfields, hsid | ⟨hsid, hslack⟩⟩
  · obtain ⟨s, available, hcut, hend, hlack, rfl⟩ := hadjoining.exists_cut (Nat.zero_le _) hfield
    exact .field hstands hcut hend hlack
  · have hstart := (hadjoining.firstCut_eq_none_iff (Nat.zero_le _)).mp hfields
    unfold sidFault at hsid
    split_ifs at hsid with hlack
    cases hsid
    exact .trustee hstands hfields (Nat.add_sub_cancel' hstart) rfl hlack
  · have hstart := (hadjoining.firstCut_eq_none_iff (Nat.zero_le _)).mp hfields
    unfold sidFault at hsid
    split_ifs at hsid with hlack
    have hend := (not_lt_sidNeeded_iff hstart).mp hlack
    unfold slackFault at hslack
    split_ifs at hslack with hpolicy
    cases hslack
    obtain ⟨hstrict, hdata, hne⟩ := hpolicy
    exact .slack hstands hstrict hdata (Nat.lt_of_le_of_ne hend hne)

theorem Fault.found (h : Fault options bytes e) : headerFault bytes = some e ∨
    HeaderStands bytes ∧ bodyFault options.sizePolicy bytes = some e := by
  have hadjoining := adjoining_spans bytes
  have htype : bytes ≠ [] → Span.fault bytes.length [⟨.aceType, 0, 1⟩] = none := by
    intro hsome
    have hfirst : Span.Adjoining 0 [⟨.aceType, 0, 1⟩] 1 := .cons rfl (.nil 1)
    rw [Span.fault_eq_none_iff, hfirst.firstCut_eq_none_iff (Nat.zero_le _)]
    exact List.length_pos_iff.mpr hsome
  cases h with
  | noType hempty =>
    subst hempty
    exact .inl rfl
  | unknownType hsome hcode =>
    left
    rw [headerFault, htype hsome, Option.none_or, unknownFault, if_neg (UInt8.not_lt.mpr hcode),
      Option.some_or]
  | headerField hsome hknown hshort hfirst hend hlack =>
    left
    rw [headerFault, htype hsome, Option.none_or, unknownFault, if_pos hknown, Option.none_or,
      Span.fault_of_firstCut hfirst hend, Option.some_or]
  | overrun hheader hknown hlack =>
    have hsome : bytes ≠ [] := List.length_pos_iff.mp (by omega)
    have hfields : Span.fault bytes.length headerSpans = none := by
      rw [Span.fault_eq_none_iff, adjoining_headerSpans.firstCut_eq_none_iff (by omega)]
      exact hheader
    left
    rw [headerFault, htype hsome, Option.none_or, unknownFault, if_pos hknown, Option.none_or,
      hfields, Option.none_or, overrunFault, if_neg (Nat.not_le.mpr hlack)]
  | field hstands hfirst hend hlack =>
    refine .inr ⟨hstands, ?_⟩
    rw [bodyFault, Span.fault_of_firstCut hfirst hend, Option.some_or]
  | @trustee needed available hstands hfields hend hneeded hlack =>
    refine .inr ⟨hstands, ?_⟩
    have hrest : declaredSize bytes - trusteeStart bytes = available := by omega
    have hsid : sidNeeded bytes (declaredSize bytes) (trusteeStart bytes) = needed := by
      rw [sidNeeded, hrest, hneeded, Sid.countAt]
    rw [bodyFault, Span.fault_eq_none_iff.mpr hfields, Option.none_or, sidFault, hrest, hsid,
      if_pos hlack, Option.some_or]
  | slack hstands hstrict hdata hend =>
    refine .inr ⟨hstands, ?_⟩
    have hstart : trusteeStart bytes ≤ declaredSize bytes := by
      unfold fieldsEnd at hend
      omega
    have hfields := (hadjoining.firstCut_eq_none_iff (Nat.zero_le _)).mpr hstart
    have hsid := (not_lt_sidNeeded_iff hstart).mpr (Nat.le_of_lt hend)
    rw [bodyFault, Span.fault_eq_none_iff.mpr hfields, Option.none_or, sidFault, if_neg hsid,
      Option.none_or, slackFault, if_pos ⟨hstrict, hdata, Nat.ne_of_lt hend⟩]

/-- Bytes that are no entry get their first fault as the error, and nothing else is an error: a
missing type; an unknown type; a header cut off; a declared size that is not there; the first field
that does not end inside the declared size; a trustee that does not; and, under a strict policy and
for a type without data, slack. Wherever bytes are missing, there are fewer than are needed. -/
theorem decode_error_iff_first_fault (options : DecodeOptions) (bytes : List UInt8) :
    (∀ e, decode options bytes = .error e ↔ Fault options bytes e) ∧
      (∀ field offset needed available,
        decode options bytes = .error (.truncated field offset needed available) →
          available < needed) ∧
      ∀ offset needed available,
        decode options bytes = .error (.sid offset ⟨needed, available⟩) → available < needed := by
  have hfault : ∀ e, decode options bytes = .error e ↔ Fault options bytes e := by
    intro e
    rw [decode_error_iff]
    constructor
    · rintro (hheader | ⟨hstands, hbody⟩)
      · exact fault_of_headerFault hheader
      · exact fault_of_bodyFault hstands hbody
    · exact Fault.found
  refine ⟨hfault, ?_, ?_⟩
  · intro field offset needed available h
    cases (hfault _).mp h with
    | noType => exact Nat.one_pos
    | headerField _ _ _ _ _ hlack => exact hlack
    | field _ _ _ hlack => exact hlack
  · intro offset needed available h
    cases (hfault _).mp h with
    | trustee _ _ _ _ hlack => exact hlack

/-- An entry of eighteen bytes whose trustee counts a sub-authority of four, where two are left. -/
def cutTrustee : List UInt8 := [0, 0, 18, 0, 0, 0, 0, 1, 1, 1, 0, 0, 0, 0, 0, 5, 32, 0]

theorem decode_error_cutTrustee :
    decode .strict cutTrustee = .error (.sid 8 ⟨12, 10⟩) ∧ 10 < 12 := by
  obtain ⟨hfault, -, hfewer⟩ := decode_error_iff_first_fault .strict cutTrustee
  have hstands : HeaderStands cutTrustee := ⟨by decide, by decide, by decide⟩
  have herror : decode .strict cutTrustee = .error (.sid 8 ⟨12, 10⟩) :=
    (hfault _).mpr (.trustee hstands (by decide) (by decide) (by decide) (by decide))
  exact ⟨herror, hfewer _ _ _ herror⟩

end Grammar
end Ace
end AccessControl
