import AccessControl.Proofs.Ace.Grammar
import AccessControl.Proofs.Ace.Lossless
import AccessControl.Proofs.Locations
import AccessControl.Verbosity

/-!
# Events of the decoders

What a decoder reports can be told from what it decodes. An entry is reported with its object
flags and with what stands behind its trustee; a list with its header and then, for each entry
that is decoded, the events of the entry and the entry itself; a descriptor with its header and
its selected components. Where decoding fails, the events stop: everything decoded before has been
reported, and of what fails only what was read of it.
-/

namespace AccessControl

variable {options : DecodeOptions} {bytes : List UInt8}

/-- From the third request for more detail on, everything is shown. -/
theorem Verbosity.shown_ofCount {verbose : Nat} (h : 3 ≤ verbose) (events : List Event) :
    (ofCount verbose).shown events = events := by
  obtain ⟨more, rfl⟩ := Nat.exists_eq_add_of_le' h
  apply List.filter_eq_self.mpr
  intro e _
  cases e <;> rfl

/-! ## Entries -/

namespace Ace

/-- What stands behind the trustee of a decoded entry: data, slack or nothing. -/
def tailAccount (ace : Ace) : List Event :=
  match ace.applicationData with
  | some data => [.applicationData data.length]
  | none =>
    if ace.fieldsLength = ace.size.toNat then [] else [.slack ace.size.toNat ace.fieldsLength]

/-- What a decoded entry is reported with. -/
def account (ace : Ace) : List Event :=
  (ace.objectFlags.map Event.objectFlags).toList ++ ace.tailAccount

/-- The object flags of an object type, where the declared size has room for them. -/
def flagEvents (bytes : List UInt8) : List Event :=
  if Grammar.code bytes ∈ Layout.objectCodes ∧ 12 ≤ Grammar.declaredSize bytes ∧
      Grammar.declaredSize bytes ≤ bytes.length then
    [.objectFlags ⟨BitVec.ofNat 32 (Grammar.objectWord bytes)⟩]
  else []

/-- Object flags go with the object types, and data with the types that carry it. -/
structure Fitting (ace : Ace) : Prop where
  objectFlags_isSome : ace.objectFlags.isSome = ace.type.isObject
  data_isSome : ace.applicationData.isSome = ace.type.carriesData

/-- What an entry is reported with, by what it is decoded to. Slack that is refused has been
reported before; an entry that fails otherwise got no further than its object flags. -/
inductive Reported (bytes : List UInt8) : Except DecodeError Ace → List Event → Prop
  | decoded {ace : Ace} (hfitting : ace.Fitting) : Reported bytes (.ok ace) ace.account
  | refused (declared consumed : Nat) :
      Reported bytes (.error (.sizeMismatch declared consumed))
        (flagEvents bytes ++ [.slack declared consumed])
  | cut {e : DecodeError} (he : ∀ declared consumed, e ≠ .sizeMismatch declared consumed) :
      Reported bytes (.error e) (flagEvents bytes)

variable {bound : Nat} {ace : Ace}

open Cursor (within)

/-- The flags are reported as soon as they are read, and nothing behind them is. -/
theorem events_readScope (type : AceType) (c : Cursor) :
    (readScope type c).events = if type.isObject then
        match c.longLittle .objectFlags with
        | .ok (word, _) => [.objectFlags ⟨word.toBitVec⟩]
        | .error _ => []
      else [] := by
  unfold readScope
  split_ifs
  · cases c.longLittle .objectFlags with
    | error e => rfl
    | ok read =>
      refine congrArg _ (Traced.events_bind_silent (liftM _) ?_)
      rintro ⟨objectType, c⟩
      refine Traced.events_bind_silent (liftM _) ?_
      rintro ⟨inherited, c⟩
      rfl
  · rfl

theorem events_readScope_within (hbound : bound ≤ bytes.length) (hstart : 8 ≤ bound)
    (type : AceType) :
    (readScope type (within bytes bound 8)).events =
      if type.isObject ∧ 12 ≤ bound then
        [.objectFlags ⟨BitVec.ofNat 32 (Grammar.objectWord bytes)⟩]
      else [] := by
  have hword : Cursor.Covers _ bytes bound 8 4 _ := Cursor.longLittle_covers hbound .objectFlags
  rw [events_readScope]
  by_cases hobject : type.isObject = true
  · rw [if_pos hobject]
    cases hread : (within bytes bound 8).longLittle .objectFlags with
    | error e =>
      have hshort : ¬ 12 ≤ bound := by
        intro hfits
        obtain ⟨word, hok⟩ := hword.total hfits
        cases hok.symm.trans hread
      rw [if_neg fun h => hshort h.2]
    | ok read =>
      obtain ⟨word, c⟩ := read
      obtain ⟨hfits, hvalue, -⟩ := hword.sound hstart hread
      have hflags : BitVec.ofNat 32 (Grammar.objectWord bytes) = word.toBitVec := by
        rw [Grammar.objectWord, ← hvalue, BitVec.ofNat_uInt32ToNat]
      rw [if_pos ⟨hobject, hfits⟩, hflags]
  · rw [if_neg hobject, if_neg fun h => hobject h.1]

/-- Nothing but the object flags is reported before the fields are read. -/
theorem events_readBody (policy : SizePolicy) (type : AceType) (flags : AceFlags) (size : UInt16)
    (extent : List UInt8) :
    (readBody policy type flags size extent).events =
      (match (Cursor.ofBytes extent).skip headerLength .aceHeader >>=
          fun c => c.longBig .accessMask with
        | .ok (_, c) => (readScope type c).events
        | .error _ => []) ++
      match (Cursor.ofBytes extent).skip headerLength .aceHeader >>= readFields type with
        | .ok (_, c) => tailEvents type size.toNat c.position
        | .error _ => [] := by
  unfold readBody
  cases (Cursor.ofBytes extent).skip headerLength .aceHeader with
  | error e => rfl
  | ok c =>
    simp only [Traced.events_liftM_ok_bind, ok_bind, readFields]
    cases c.longBig .accessMask with
    | error e => rfl
    | ok read =>
      obtain ⟨mask, c⟩ := read
      simp only [Traced.events_liftM_ok_bind, ok_bind]
      cases hscope : (readScope type c).result with
      | error e => rw [Traced.events_bind_error hscope, error_bind, List.append_nil]
      | ok read =>
        obtain ⟨scope, c⟩ := read
        rw [Traced.events_bind_ok hscope, ok_bind]
        cases readTrustee c with
        | error e => rfl
        | ok read =>
          rw [Traced.events_liftM_ok_bind, Traced.events_bind_pure]
          rfl

/-- The object flags come behind the mask, eight bytes from the start. -/
theorem events_scope (hbound : bound ≤ bytes.length) (type : AceType) :
    (match (Cursor.ofBytes (bytes.take bound)).skip headerLength .aceHeader >>=
        fun c => c.longBig .accessMask with
      | .ok (_, c) => (readScope type c).events
      | .error _ => []) =
      if type.isObject ∧ 12 ≤ bound then
        [.objectFlags ⟨BitVec.ofNat 32 (Grammar.objectWord bytes)⟩]
      else [] := by
  have hmask : Cursor.Covers _ bytes bound 4 4 _ := Cursor.longBig_covers hbound .accessMask
  have hskip : ∀ {d}, (Cursor.ofBytes (bytes.take bound)).skip headerLength .aceHeader = .ok d ↔
      4 ≤ bound ∧ d = within bytes bound 4 :=
    Cursor.skip_within_eq_ok_iff hbound (Nat.zero_le _)
  cases hread : (Cursor.ofBytes (bytes.take bound)).skip headerLength .aceHeader >>=
      fun c => c.longBig .accessMask with
  | error e =>
    have hshort : ¬ 12 ≤ bound := by
      intro hlong
      obtain ⟨mask, hok⟩ := hmask.total (by omega)
      have hfour : 4 ≤ bound := by omega
      rw [hskip.mpr ⟨hfour, rfl⟩, ok_bind, hok] at hread
      cases hread
    rw [if_neg fun h => hshort h.2]
  | ok read =>
    obtain ⟨mask, c⟩ := read
    obtain ⟨c₁, hheader, hread⟩ := bind_eq_ok_iff.mp hread
    obtain ⟨hfour, rfl⟩ := hskip.mp hheader
    obtain ⟨hfits, -, rfl⟩ := hmask.sound hfour hread
    exact events_readScope_within hbound hfits type

theorem flagEvents_of_readHeader {type : AceType} {flags : AceFlags} {size : UInt16}
    (h : readHeader bytes = .ok (type, flags, size)) :
    flagEvents bytes = if type.isObject ∧ 12 ≤ size.toNat then
        [.objectFlags ⟨BitVec.ofNat 32 (Grammar.objectWord bytes)⟩]
      else [] := by
  obtain ⟨-, htype, -, hsize, hle⟩ := Grammar.readHeader_iff.mp h
  simp only [flagEvents, ← htype, mem_objectCodes_iff, hsize, hle, and_true]

/-- Without a header nothing is read that could be reported. -/
theorem flagEvents_of_readHeader_error {e : DecodeError} (h : readHeader bytes = .error e) :
    flagEvents bytes = [] := by
  have hknown : ∀ code ∈ Layout.objectCodes, code < 20 := by simp [Layout.objectCodes]
  apply if_neg
  rintro ⟨hobject, hlong, hle⟩
  have hfour : 4 ≤ bytes.length := by omega
  obtain ⟨type, htype⟩ := AceType.exists_code_eq_iff.mpr (hknown _ hobject)
  have hsize : (UInt16.ofNat (Grammar.declaredSize bytes)).toNat = Grammar.declaredSize bytes :=
    ByteOrder.toNat_word (length_stretch hfour)
  have hok : readHeader bytes = .ok (type, ⟨(bytes.getD 1 0).toBitVec⟩, _) :=
    Grammar.readHeader_iff.mpr ⟨hfour, htype, rfl, hsize, hle⟩
  cases hok.symm.trans h

theorem events_read {type : AceType} {flags : AceFlags} {size : UInt16}
    (h : readHeader bytes = .ok (type, flags, size)) (options : DecodeOptions) :
    (read options bytes).events = flagEvents bytes ++
      match (Cursor.ofBytes (bytes.take size.toNat)).skip headerLength .aceHeader >>=
          readFields type with
        | .ok (_, c) => tailEvents type size.toNat c.position
        | .error _ => [] := by
  rw [read_eq_readBody h, events_readBody, events_scope (readHeader_eq_ok_iff.mp h).1,
    flagEvents_of_readHeader h]

/-- The flags of a decoded entry are the reported ones. -/
theorem flagEvents_of_decode (h : decode options bytes = .ok ace) :
    flagEvents bytes = (ace.objectFlags.map Event.objectFlags).toList := by
  obtain ⟨haccepted, hdescribes⟩ := Grammar.accepted_and_describes_of_decode h
  have hflags := hdescribes.objectFlags_eq
  have hsize := haccepted.size_le
  have hfields := haccepted.fields_le
  by_cases hobject : Grammar.code bytes ∈ Layout.objectCodes
  · rw [if_pos hobject, Option.map_eq_some_iff] at hflags
    obtain ⟨word, hword, hraw⟩ := hflags
    have hlong : 12 ≤ Grammar.declaredSize bytes := by
      rw [Grammar.fieldsEnd, Grammar.trusteeStart, Grammar.scopeLength, if_pos hobject] at hfields
      omega
    rw [flagEvents, if_pos ⟨hobject, hlong, hsize⟩, hword, ← hraw, BitVec.ofNat_toNat,
      BitVec.setWidth_eq]
    rfl
  · rw [if_neg hobject, Option.map_eq_none_iff] at hflags
    rw [flagEvents, if_neg fun h => hobject h.1, hflags]
    rfl

theorem Fills.tailAccount_eq {tail : List UInt8} (h : Fills bytes ace tail) :
    ace.tailAccount = tailEvents ace.type ace.size.toNat ace.fieldsLength := by
  have hlength := h.length_front_add
  rw [length_front_eq_fieldsLength h.countable] at hlength
  rw [tailAccount, tailEvents, h.data_eq]
  cases ace.type.carriesData with
  | true =>
    have htail : tail.length = ace.size.toNat - ace.fieldsLength := by omega
    exact congrArg (fun n => [Event.applicationData n]) htail
  | false =>
    by_cases hfull : ace.fieldsLength = ace.size.toNat
    · simp [hfull]
    · simp [hfull, Ne.symm hfull]

/-- The fields of a decoded entry have been read when its tail is reported. -/
theorem exists_readFields_of_decode (h : decode options bytes = .ok ace) :
    ∃ f c, (Cursor.ofBytes (bytes.take ace.size.toNat)).skip headerLength .aceHeader >>=
      readFields ace.type = .ok (f, c) ∧ c.position = ace.fieldsLength := by
  obtain ⟨tail, hfills, -⟩ := fills_of_decode h
  obtain ⟨type, flags, size, hheader, hbody⟩ := decode_eq_ok_iff.mp h
  obtain ⟨c, mask, scope, trustee, d, hskip, hfields, -, rfl⟩ := readBody_eq_ok_iff.mp hbody
  obtain ⟨-, -, hposition⟩ := (readFields_reads type).accepted hfields
  obtain ⟨-, rfl⟩ := Cursor.skip_eq_ok_iff.mp hskip
  refine ⟨(mask, scope, trustee), d, bind_eq_ok_iff.mpr ⟨_, hskip, hfields⟩, ?_⟩
  rw [← length_front_eq_fieldsLength hfills.countable, length_front]
  exact hposition.trans (congrArg (· + _) (Nat.zero_add headerLength))

theorem events_of_decode (h : decode options bytes = .ok ace) :
    (read options bytes).events = ace.account := by
  obtain ⟨tail, hfills, -⟩ := fills_of_decode h
  obtain ⟨f, c, hfields, hposition⟩ := exists_readFields_of_decode h
  rw [events_read (readHeader_of_decode h), flagEvents_of_decode h, account, hfills.tailAccount_eq,
    hfields, ← hposition]

theorem fitting_of_decode (h : decode options bytes = .ok ace) : ace.Fitting := by
  obtain ⟨tail, hfills, -⟩ := fills_of_decode h
  constructor
  · rw [← hfills.scope_fits.1, objectFlags, Option.isSome_map]
  · rw [hfills.data_eq]
    cases ace.type.carriesData <;> rfl

/-- Only a strict policy, and only on account of slack, refuses an entry behind its fields. -/
theorem result_readTail_eq_error_iff {policy : SizePolicy} {type : AceType} {declared : Nat}
    {c : Cursor} {e : DecodeError} :
    (readTail policy type declared c).result = .error e ↔
      policy = .strict ∧ tailEvents type declared c.position = [.slack declared c.position] ∧
        e = .sizeMismatch declared c.position := by
  unfold readTail tailEvents
  cases type.carriesData with
  | true => simp
  | false =>
    by_cases hposition : c.position = declared
    · simp [hposition]
    · have hslack : declared ≠ c.position := Ne.symm hposition
      cases policy <;> simp [hposition, hslack, eq_comm]

theorem reported (options : DecodeOptions) (bytes : List UInt8) :
    Reported bytes (decode options bytes) (read options bytes).events := by
  cases hheader : readHeader bytes with
  | error e =>
    rw [decode_of_readHeader_error hheader, read, hheader, Traced.events_liftM_error_bind,
      ← flagEvents_of_readHeader_error hheader]
    apply Reported.cut
    rintro declared consumed rfl
    rcases short_or_unknown_of_readHeader bytes _ hheader with hshort | ⟨_, _, _, _, hunknown⟩
    · cases hshort
    · cases hunknown
  | ok header =>
    obtain ⟨type, flags, size⟩ := header
    cases hdecode : decode options bytes with
    | ok ace =>
      rw [events_of_decode hdecode]
      exact .decoded (fitting_of_decode hdecode)
    | error e =>
      rw [events_read hheader]
      rw [decode, read_eq_readBody hheader, result_readBody] at hdecode
      rcases bind_eq_error_iff.mp hdecode with hfields | ⟨⟨f, c⟩, hfields, htail⟩
      · rw [hfields, List.append_nil]
        apply Reported.cut
        rintro declared consumed rfl
        cases fails_readFields type _ _ hfields
      · obtain ⟨-, hevents, rfl⟩ := result_readTail_eq_error_iff.mp (exceptMap_eq_error_iff.mp htail)
        rw [hfields]
        dsimp only
        rw [hevents]
        exact .refused _ _

theorem target_of_mem_account {event : Event} (h : event ∈ ace.account) : event.target = .ace := by
  rcases List.mem_append.mp h with hflags | htail
  · obtain ⟨flags, -, rfl⟩ := Option.map_eq_some_iff.mp (Option.mem_toList.mp hflags)
    rfl
  · unfold tailAccount at htail
    split at htail
    · cases List.mem_singleton.mp htail
      rfl
    · split_ifs at htail
      · exact absurd htail List.not_mem_nil
      · cases List.mem_singleton.mp htail
        rfl

theorem target_of_mem_flagEvents {event : Event} (h : event ∈ flagEvents bytes) :
    event.target = .ace := by
  unfold flagEvents at h
  split_ifs at h
  · cases List.mem_singleton.mp h
    rfl
  · exact absurd h List.not_mem_nil

theorem target_of_mem_events {event : Event} (h : event ∈ (read options bytes).events) :
    event.target = .ace := by
  have hreported := reported options bytes
  generalize decode options bytes = result, (read options bytes).events = events at hreported h
  cases hreported with
  | decoded hfitting => exact target_of_mem_account h
  | refused declared consumed =>
    rcases List.mem_append.mp h with hflags | hslack
    · exact target_of_mem_flagEvents hflags
    · cases List.mem_singleton.mp hslack
      rfl
  | cut he => exact target_of_mem_flagEvents h

end Ace
end AccessControl
