import AccessControl.Proofs.Events.Entry

/-!
# Events of lists and descriptors

A list is reported with its header and then entry by entry: the events of the entry, and behind
them the entry with its number and its place. A descriptor is reported with its header and then
component by component, with the place of each and whatever its decoder reports from there. A
failure cuts the events off where it happens.
-/

namespace AccessControl

variable {options : DecodeOptions} {bytes : List UInt8}

namespace Event

/-- Number, offset and entry, of an event that reports an entry of a list. -/
def entry? : Event → Option (Nat × Nat × Ace)
  | .aclEntry index offset ace => some (index, offset, ace)
  | _ => none

/-- Name and offset, of an event that reports a component of a descriptor. -/
def component? : Event → Option (Component × Nat)
  | .component which offset => some (which, offset)
  | _ => none

theorem filterMap_entry?_of_target {events : List Event} (h : ∀ e ∈ events, e.target = .ace) :
    events.filterMap entry? = [] := by
  apply List.filterMap_eq_nil_iff.mpr
  intro e he
  have htarget := h e he
  cases e <;> first | rfl | cases htarget

theorem filterMap_component?_of_target {events : List Event}
    (h : ∀ e ∈ events, e.target ≠ .descriptor) : events.filterMap component? = [] := by
  apply List.filterMap_eq_nil_iff.mpr
  intro e he
  have htarget := h e he
  cases e <;> first | rfl | exact absurd rfl htarget

end Event

/-! ## Lists -/

namespace Acl

variable {header : Header} {s : Scan} {ace : Ace} {aces : List Ace}

/-- The entries of a list, each with its number and its place. -/
def placed (aces : List Ace) : List (Nat × Nat × Ace) :=
  aces.mapIdx fun i ace => (i, endOffset headerLength (aces.take i), ace)

/-- What an entry of a list is reported with: its own events, and then the entry itself. -/
def entryAccount : Nat × Nat × Ace → List Event
  | (index, offset, ace) => ace.account ++ [.aclEntry index offset ace]

def account (aces : List Ace) : List Event :=
  (placed aces).flatMap entryAccount

/-- What a list is reported with, by what it is decoded to. All announced entries come before
the size is refused; an entry that fails leaves the events that its own decoder reports. -/
inductive Reported (options : DecodeOptions) (bytes : List UInt8) :
    Except DecodeError Acl → List Event → Prop
  | headless {e : DecodeError} (hheader : readHeader bytes = .error e) :
      Reported options bytes (.error e) []
  | decoded {header : Header} {acl : Acl} (hbegins : Begins options bytes header acl.aces)
      (hcount : acl.aces.length = header.count.toNat) :
      Reported options bytes (.ok acl)
        (.aclHeader header.revision header.size header.count :: account acl.aces)
  | exceeded {header : Header} {aces : List Ace} (hbegins : Begins options bytes header aces)
      (hcount : aces.length = header.count.toNat) :
      Reported options bytes
        (.error (.aclSizeExceeded header.size.toNat (endOffset headerLength aces)))
        (.aclHeader header.revision header.size header.count :: account aces)
  | cut {header : Header} {aces : List Ace} {e : DecodeError}
      (hbegins : Begins options bytes header aces) (hcount : aces.length < header.count.toNat)
      (hfails : Ace.decode options (bytes.drop (endOffset headerLength aces)) = .error e) :
      Reported options bytes (.error (.inAce aces.length (endOffset headerLength aces) e))
        (.aclHeader header.revision header.size header.count :: account aces ++
          (Ace.read options (bytes.drop (endOffset headerLength aces))).events)

theorem length_placed (aces : List Ace) : (placed aces).length = aces.length :=
  List.length_mapIdx

theorem placed_append_singleton (aces : List Ace) (ace : Ace) :
    placed (aces ++ [ace]) =
      placed aces ++ [(aces.length, endOffset headerLength aces, ace)] := by
  have hfront : (aces.mapIdx fun i ace' =>
        (i, endOffset headerLength ((aces ++ [ace]).take i), ace')) = placed aces := by
    apply List.mapIdx_eq_mapIdx_iff.mpr
    intro i hi
    rw [List.take_append_of_le_length (Nat.le_of_lt hi)]
  rw [placed, List.mapIdx_append, hfront]
  simp

theorem account_append_singleton (aces : List Ace) (ace : Ace) :
    account (aces ++ [ace]) = account aces ++
      (ace.account ++ [.aclEntry aces.length (endOffset headerLength aces) ace]) := by
  rw [account, placed_append_singleton, List.flatMap_append, List.flatMap_singleton]
  rfl

theorem events_readEntries_of_decode {count index offset : Nat}
    (h : Ace.decode options bytes = .ok ace) :
    (readEntries options (count + 1) index offset bytes).events =
      ace.account ++ .aclEntry index offset ace ::
        (readEntries options count (index + 1) (offset + ace.size.toNat)
          (bytes.drop ace.size.toNat)).events := by
  have hresult : ((Ace.read options bytes).mapError (.inAce index offset)).result = .ok ace :=
    congrArg (Except.mapError _) h
  rw [readEntries, Traced.events_bind_ok hresult, Traced.events_mapError, Ace.events_of_decode h]
  rfl

theorem events_readEntries_of_decode_error {count index offset : Nat} {e : DecodeError}
    (h : Ace.decode options bytes = .error e) :
    (readEntries options (count + 1) index offset bytes).events =
      (Ace.read options bytes).events := by
  have hresult : ((Ace.read options bytes).mapError (.inAce index offset)).result =
      .error (.inAce index offset e) := congrArg (Except.mapError _) h
  rw [readEntries, Traced.events_bind_error hresult, Traced.events_mapError]

/-- The entries that the scan has come through have been reported, and nothing else. -/
theorem Scan.Reached.events_readEntries (h : Reached options bytes header s) :
    (readEntries options header.count.toNat 0 headerLength (bytes.drop headerLength)).events =
      account s.found ++ (readEntries options (header.count.toNat - s.found.length)
        s.found.length s.offset (bytes.drop s.offset)).events := by
  -- On the way to the state: one more entry is found, and the next is what the rest begins with.
  induction h with
  | start hheader => rfl
  | @push s ace hs hcount hace ih =>
    have hleft : header.count.toNat - s.found.length =
        header.count.toNat - (s.found.length + 1) + 1 := by
      omega
    rw [ih, hleft, events_readEntries_of_decode hace, List.drop_drop, Scan.push,
      account_append_singleton, ← hs.sound.offset_eq, List.length_append, List.length_singleton]
    simp

theorem events_read_of_readHeader (hheader : readHeader bytes = .ok header) :
    (read options bytes).events = .aclHeader header.revision header.size header.count ::
      (readEntries options header.count.toNat 0 headerLength (bytes.drop headerLength)).events := by
  rw [read, hheader, Traced.events_liftM_ok_bind, Traced.events_record_bind,
    Traced.events_bind_liftM]

theorem Scan.Reached.events_of_complete (h : Reached options bytes header s)
    (hcount : s.found.length = header.count.toNat) :
    (read options bytes).events =
      .aclHeader header.revision header.size header.count :: account s.found := by
  rw [events_read_of_readHeader h.readHeader_eq, h.events_readEntries, hcount, Nat.sub_self,
    readEntries, Traced.events_pure, List.append_nil]

theorem Scan.Reached.events_of_cut {e : DecodeError} (h : Reached options bytes header s)
    (hcount : s.found.length < header.count.toNat)
    (hfails : Ace.decode options (bytes.drop s.offset) = .error e) :
    (read options bytes).events =
      .aclHeader header.revision header.size header.count :: account s.found ++
        (Ace.read options (bytes.drop s.offset)).events := by
  have hleft : header.count.toNat - s.found.length =
      header.count.toNat - s.found.length - 1 + 1 := by
    omega
  rw [events_read_of_readHeader h.readHeader_eq, h.events_readEntries, hleft,
    events_readEntries_of_decode_error hfails, List.cons_append]

theorem reported (options : DecodeOptions) (bytes : List UInt8) :
    Reported options bytes (decode options bytes) (read options bytes).events := by
  cases hheader : readHeader bytes with
  | error e =>
    rw [decode_of_readHeader_error hheader, read, hheader, Traced.events_liftM_error_bind]
    exact .headless hheader
  | ok header =>
    rcases exists_reached_of_readHeader hheader with
      ⟨acl, hreached, hcount, -⟩ | ⟨s, e, hs, hcount, hfails, hdecode⟩
    · obtain ⟨hbegins, hend⟩ := hreached.begins
      rw [hreached.decode_of_complete hcount, hreached.events_of_complete hcount, checkSize]
      split_ifs
      · exact .exceeded hbegins hcount
      · exact .decoded hbegins hcount
    · obtain ⟨hbegins, hend⟩ := hs.begins
      rw [hdecode, hs.events_of_cut hcount hfails, hend]
      rw [hend] at hfails
      exact .cut hbegins hcount hfails

theorem Begins.fitting (h : Begins options bytes header aces) : ∀ ace ∈ aces, ace.Fitting := by
  have hreached := begins_iff_reached.mp h
  clear h
  generalize hs : (⟨endOffset headerLength aces, aces⟩ : Scan) = s at hreached
  obtain rfl : s.found = aces := by rw [← hs]
  clear hs
  induction hreached with
  | start hheader => exact List.forall_mem_nil _
  | push hs hcount hace ih =>
    exact List.forall_mem_append.mpr
      ⟨ih, List.forall_mem_singleton.mpr (Ace.fitting_of_decode hace)⟩

theorem target_of_mem_account {event : Event} (h : event ∈ account aces) :
    event.target ≠ .descriptor := by
  obtain ⟨⟨index, offset, ace⟩, -, hmem⟩ := List.mem_flatMap.mp h
  rcases List.mem_append.mp hmem with hace | hentry
  · rw [Ace.target_of_mem_account hace]
    nofun
  · cases List.mem_singleton.mp hentry
    nofun

/-- Neither the header nor the entries are events of a descriptor. -/
theorem target_of_mem_report {event : Event} {revision : AclRevision} {size count : UInt16}
    (h : event ∈ .aclHeader revision size count :: account aces) :
    event.target ≠ .descriptor := by
  rcases List.mem_cons.mp h with rfl | h
  · nofun
  · exact target_of_mem_account h

theorem target_of_mem_events {event : Event} (h : event ∈ (read options bytes).events) :
    event.target ≠ .descriptor := by
  have hreported := reported options bytes
  generalize decode options bytes = result, (read options bytes).events = events at hreported h
  cases hreported with
  | headless hheader => exact absurd h List.not_mem_nil
  | decoded hbegins hcount => exact target_of_mem_report h
  | exceeded hbegins hcount => exact target_of_mem_report h
  | cut hbegins hcount hfails =>
    rcases List.mem_append.mp h with h | h
    · exact target_of_mem_report h
    · rw [Ace.target_of_mem_events h]
      nofun

theorem filterMap_entry?_entryAccount (place : Nat × Nat × Ace) :
    (entryAccount place).filterMap Event.entry? = [place] := by
  rw [entryAccount, List.filterMap_append,
    Event.filterMap_entry?_of_target fun _ => Ace.target_of_mem_account]
  rfl

/-- From what is reported, the entries are found again with their numbers and places. -/
theorem filterMap_entry?_account (aces : List Ace) :
    (account aces).filterMap Event.entry? = placed aces := by
  rw [account, List.filterMap_flatMap]
  simp only [filterMap_entry?_entryAccount, List.flatMap_singleton']

/-! The entries that are reported, by the outcome. -/

section Outcome

variable {events : List Event} {acl : Acl}

theorem entries_of_ok (hreported : Reported options bytes (.ok acl) events)
    (hheader : readHeader bytes = .ok header) :
    events.filterMap Event.entry? = placed acl.aces ∧ acl.aces.length = header.count.toNat := by
  cases hreported with
  | decoded hbegins hcount =>
    cases hbegins.header_eq.symm.trans hheader
    exact ⟨filterMap_entry?_account acl.aces, hcount⟩

theorem entries_of_aclSizeExceeded {declared consumed : Nat}
    (hreported : Reported options bytes (.error (.aclSizeExceeded declared consumed)) events)
    (hheader : readHeader bytes = .ok header) :
    (events.filterMap Event.entry?).length = header.count.toNat := by
  cases hreported with
  | headless hheader' => cases hheader'.symm.trans hheader
  | exceeded hbegins hcount =>
    cases hbegins.header_eq.symm.trans hheader
    rw [← hcount, ← length_placed, ← filterMap_entry?_account]
    rfl

theorem entries_of_inAce {index offset : Nat} {e : DecodeError}
    (hreported : Reported options bytes (.error (.inAce index offset e)) events) :
    ∃ aces, events.filterMap Event.entry? = placed aces ∧ aces.length = index ∧
      offset = endOffset headerLength aces := by
  cases hreported with
  | headless hheader => cases fails_readHeader bytes _ hheader
  | @cut header aces _ hbegins hcount hfails =>
    refine ⟨aces, ?_, rfl, rfl⟩
    rw [List.filterMap_append,
      Event.filterMap_entry?_of_target fun _ => Ace.target_of_mem_events, List.append_nil]
    exact filterMap_entry?_account aces

end Outcome

end Acl

/-! ## Descriptors -/

/-- The components in the order in which they are decoded. -/
def Component.all : List Component := [.owner, .group, .sacl, .dacl]

namespace Descriptor

variable {h : Header} {which : Component}

/-- What a component is reported with: its place, when that lies inside the bytes, and what its
decoder reports from there on. -/
def componentAccount (options : DecodeOptions) (bytes : List UInt8) (which : Component) :
    List Event :=
  if selectedAt bytes which ∧ offsetAt bytes which < bytes.length then
    .component which (offsetAt bytes which) ::
      (which.read options (offsetAt bytes which) (bytes.drop (offsetAt bytes which))).events
  else []

/-- What a descriptor is reported with, by what it is decoded to. A component that fails is the
last one that is reported. -/
inductive Reported (options : DecodeOptions) (bytes : List UInt8) :
    Except DecodeError Descriptor → List Event → Prop
  | headless {e : DecodeError} (hheader : readHeader bytes = .error e) :
      Reported options bytes (.error e) []
  | decoded {h : Header} {d : Descriptor} (hheader : readHeader bytes = .ok h) :
      Reported options bytes (.ok d) (.descriptorHeader h.revision h.control ::
        Component.all.flatMap (componentAccount options bytes))
  | cut {h : Header} {which : Component} {e : DecodeError} (hheader : readHeader bytes = .ok h)
      (hselected : selectedAt bytes which = true) :
      Reported options bytes (.error (.inDescriptor which e))
        (.descriptorHeader h.revision h.control ::
          (which.earlier ++ [which]).flatMap (componentAccount options bytes))

theorem events_readComponent (hstands : HeaderStands bytes h) (which : Component) :
    (readComponent h bytes which (which.read options (h.offset which))).events =
      componentAccount options bytes which := by
  rw [readComponent, componentAccount, hstands.selects_eq, hstands.offset_eq]
  by_cases hselected : selectedAt bytes which = true
  · by_cases hinside : offsetAt bytes which < bytes.length
    · simp [hselected, hinside, Nat.succ_le_of_lt hinside]
    · have houtside : ¬ offsetAt bytes which + 1 ≤ bytes.length := hinside
      simp [hselected, hinside, houtside]
  · simp [hselected]

/-- The components one after the other, as they are read behind the header. -/
def readComponents (options : DecodeOptions) (bytes : List UInt8) (h : Header) :
    Traced Descriptor := do
  let owner ← readComponent h bytes .owner (Component.owner.read options (h.offset .owner))
  let group ← readComponent h bytes .group (Component.group.read options (h.offset .group))
  let sacl ← readComponent h bytes .sacl (Component.sacl.read options (h.offset .sacl))
  let dacl ← readComponent h bytes .dacl (Component.dacl.read options (h.offset .dacl))
  return { revision := h.revision, sbz1 := h.sbz1, control := h.control, owner, group, sacl, dacl }

theorem events_read_of_readHeader (hread : readHeader bytes = .ok h) :
    (read options bytes).events =
      .descriptorHeader h.revision h.control :: (readComponents options bytes h).events := by
  rw [read, hread]
  rfl

section Chain

variable {α : Type} {value : Option which.Value}

theorem events_readComponent_bind_ok (hstands : HeaderStands bytes h)
    (hok : component options bytes which = .ok value) (f : Option which.Value → Traced α) :
    (readComponent h bytes which (which.read options (h.offset which)) >>= f).events =
      componentAccount options bytes which ++ (f value).events := by
  rw [Traced.events_bind_ok ((result_readComponent_eq hstands which).trans hok),
    events_readComponent hstands]

theorem events_readComponent_bind_error (hstands : HeaderStands bytes h) {e : DecodeError}
    (hfails : component options bytes which = .error e) (f : Option which.Value → Traced α) :
    (readComponent h bytes which (which.read options (h.offset which)) >>= f).events =
      componentAccount options bytes which := by
  rw [Traced.events_bind_error ((result_readComponent_eq hstands which).trans hfails),
    events_readComponent hstands]

end Chain

theorem events_readComponents_of_ok (hstands : HeaderStands bytes h)
    (hok : ∀ which, ∃ value, component options bytes which = .ok value) :
    (readComponents options bytes h).events =
      Component.all.flatMap (componentAccount options bytes) := by
  obtain ⟨owner, howner⟩ := hok .owner
  obtain ⟨group, hgroup⟩ := hok .group
  obtain ⟨sacl, hsacl⟩ := hok .sacl
  obtain ⟨dacl, hdacl⟩ := hok .dacl
  rw [readComponents, events_readComponent_bind_ok hstands howner,
    events_readComponent_bind_ok hstands hgroup, events_readComponent_bind_ok hstands hsacl,
    events_readComponent_bind_ok hstands hdacl]
  rfl

/-- As many components are reported as are read, up to the first one that fails. -/
theorem events_readComponents_of_error (hstands : HeaderStands bytes h) {e : DecodeError}
    (hfails : component options bytes which = .error e)
    (hbefore : ∀ before ∈ which.earlier, ∃ value, component options bytes before = .ok value) :
    (readComponents options bytes h).events =
      (which.earlier ++ [which]).flatMap (componentAccount options bytes) := by
  unfold readComponents
  cases which with
  | owner =>
    rw [events_readComponent_bind_error hstands hfails]
    simp [Component.earlier]
  | group =>
    obtain ⟨owner, howner⟩ := hbefore .owner (by decide)
    rw [events_readComponent_bind_ok hstands howner,
      events_readComponent_bind_error hstands hfails]
    simp [Component.earlier]
  | sacl =>
    obtain ⟨owner, howner⟩ := hbefore .owner (by decide)
    obtain ⟨group, hgroup⟩ := hbefore .group (by decide)
    rw [events_readComponent_bind_ok hstands howner, events_readComponent_bind_ok hstands hgroup,
      events_readComponent_bind_error hstands hfails]
    simp [Component.earlier]
  | dacl =>
    obtain ⟨owner, howner⟩ := hbefore .owner (by decide)
    obtain ⟨group, hgroup⟩ := hbefore .group (by decide)
    obtain ⟨sacl, hsacl⟩ := hbefore .sacl (by decide)
    rw [events_readComponent_bind_ok hstands howner, events_readComponent_bind_ok hstands hgroup,
      events_readComponent_bind_ok hstands hsacl, events_readComponent_bind_error hstands hfails]
    simp [Component.earlier]

theorem reported (options : DecodeOptions) (bytes : List UInt8) :
    Reported options bytes (decode options bytes) (read options bytes).events := by
  cases hread : readHeader bytes with
  | error e =>
    rw [decode_of_readHeader_error hread, read, hread, Traced.events_liftM_error_bind]
    exact .headless hread
  | ok h =>
    obtain ⟨-, hstands⟩ := headerStands_of_readHeader hread
    rw [decode_of_readHeader hread, events_read_of_readHeader hread]
    cases hcomponents : ofHeader options bytes h with
    | ok d =>
      obtain ⟨-, -, -, hholds⟩ := ofHeader_eq_ok_iff.mp hcomponents
      rw [events_readComponents_of_ok hstands fun which =>
        ⟨_, component_eq_ok_iff.mpr (hholds which)⟩]
      exact .decoded hread
    | error e =>
      obtain ⟨which, hfails, hbefore⟩ := ofHeader_eq_error_iff.mp hcomponents
      obtain ⟨hselected, source, rfl, -⟩ := component_eq_error_iff.mp hfails
      rw [events_readComponents_of_error hstands hfails hbefore]
      exact .cut hread hselected

/-- One event for each component that is selected and lies inside the bytes. -/
theorem filterMap_component?_componentAccount (options : DecodeOptions) (bytes : List UInt8)
    (which : Component) : (componentAccount options bytes which).filterMap Event.component? =
      if selectedAt bytes which ∧ offsetAt bytes which < bytes.length then
        [(which, offsetAt bytes which)]
      else [] := by
  have hinner : ((which.read options (offsetAt bytes which)
      (bytes.drop (offsetAt bytes which))).events).filterMap Event.component? = [] := by
    cases which with
    | owner => rfl
    | group => rfl
    | sacl => exact Event.filterMap_component?_of_target fun _ => Acl.target_of_mem_events
    | dacl => exact Event.filterMap_component?_of_target fun _ => Acl.target_of_mem_events
  rw [componentAccount]
  split_ifs
  · exact congrArg (_ :: ·) hinner
  · rfl

theorem filterMap_component?_of_decode {d : Descriptor} (hdecode : decode options bytes = .ok d) :
    (read options bytes).events.filterMap Event.component? =
      (Component.all.filter (selectedAt bytes)).map fun which => (which, offsetAt bytes which) := by
  obtain ⟨-, hstands⟩ := exists_decode_iff.mp ⟨d, hdecode⟩
  have hreported := reported options bytes
  rw [hdecode] at hreported
  generalize (read options bytes).events = events at hreported
  cases hreported with
  | decoded hheader =>
    show List.filterMap _ (Component.all.flatMap _) = _
    rw [List.filterMap_flatMap]
    induction Component.all with
    | nil => rfl
    | cons which others ih =>
      rw [List.flatMap_cons, ih, filterMap_component?_componentAccount]
      cases hselected : selectedAt bytes which with
      | false => simp [hselected]
      | true =>
        obtain ⟨v, hinside, -⟩ := hstands which hselected
        simp [hselected, hinside]

end Descriptor

/-- With everything shown, the events tell what is decoded. A list that has no header reports
nothing; else its header comes first, and then, entry by entry, the events of the entry and the
entry with its number and the place where it stands: as many as are announced when all of them are
decoded, also if the size is refused then, and otherwise those before the failing one, of which
only the events of its own decoder follow. A descriptor reports its header when it has one, and
then the selected components in their order, each with the events of its decoder, up to the first
one that fails. -/
theorem trace_agrees_with_decoding {verbose : Nat} (h : 3 ≤ verbose) (options : DecodeOptions)
    (bytes : List UInt8) :
    let shown := (Verbosity.ofCount verbose).shown
    let entries := (shown (Acl.read options bytes).events).filterMap Event.entry?
    let components := (shown (Descriptor.read options bytes).events).filterMap Event.component?
    Ace.Reported bytes (Ace.decode options bytes) (shown (Ace.read options bytes).events) ∧
      Acl.Reported options bytes (Acl.decode options bytes)
        (shown (Acl.read options bytes).events) ∧
      (∀ header aces, Acl.Begins options bytes header aces → ∀ ace ∈ aces, ace.Fitting) ∧
      (∀ header acl, Acl.readHeader bytes = .ok header → Acl.decode options bytes = .ok acl →
        entries = Acl.placed acl.aces ∧ entries.length = header.count.toNat) ∧
      (∀ header declared consumed, Acl.readHeader bytes = .ok header →
        Acl.decode options bytes = .error (.aclSizeExceeded declared consumed) →
        entries.length = header.count.toNat) ∧
      (∀ index offset e, Acl.decode options bytes = .error (.inAce index offset e) →
        ∃ aces, entries = Acl.placed aces ∧ entries.length = index ∧
          offset = Acl.endOffset 8 aces) ∧
      Descriptor.Reported options bytes (Descriptor.decode options bytes)
        (shown (Descriptor.read options bytes).events) ∧
      ∀ d, Descriptor.decode options bytes = .ok d →
        components = (Component.all.filter (Descriptor.selectedAt bytes)).map fun which =>
          (which, Descriptor.offsetAt bytes which) := by
  intro shown entries components
  have hshown : ∀ events, shown events = events := Verbosity.shown_ofCount h
  have hlist := Acl.reported options bytes
  have hentries : entries = (Acl.read options bytes).events.filterMap Event.entry? :=
    congrArg _ (hshown _)
  rw [hentries, hshown, hshown, hshown, show components = _ from congrArg _ (hshown _)]
  refine ⟨Ace.reported options bytes, hlist, fun _ _ hbegins => hbegins.fitting, ?_, ?_, ?_,
    Descriptor.reported options bytes, fun d => Descriptor.filterMap_component?_of_decode⟩
  · intro header acl hheader hdecode
    rw [hdecode] at hlist
    obtain ⟨hplaced, hcount⟩ := Acl.entries_of_ok hlist hheader
    refine ⟨hplaced, ?_⟩
    rw [hplaced, Acl.length_placed, hcount]
  · intro header declared consumed hheader hdecode
    rw [hdecode] at hlist
    exact Acl.entries_of_aclSizeExceeded hlist hheader
  · intro index offset e hdecode
    rw [hdecode] at hlist
    obtain ⟨aces, hplaced, hindex, hoffset⟩ := Acl.entries_of_inAce hlist
    refine ⟨aces, hplaced, ?_, hoffset⟩
    rw [hplaced, Acl.length_placed, hindex]

theorem trace_agrees_with_decoding_ownedSecondUnknown :
    3 ≤ 3 ∧
      Acl.Reported {} secondUnknown (.error (.inAce 1 24 (.unknownAceType 99)))
        [.aclHeader .standard 32 2,
          .aclEntry 0 8 ⟨.accessAllowed, ⟨0⟩, 1, none, ⟨1, 5, []⟩, none, 16⟩] ∧
      Descriptor.Reported {} ownedSecondUnknown
        (.error (.inDescriptor .dacl (.inAce 1 24 (.unknownAceType 99))))
        [.descriptorHeader 1 ⟨0x8004⟩, .component .owner 20, .component .dacl 28,
          .aclHeader .standard 32 2,
          .aclEntry 0 8 ⟨.accessAllowed, ⟨0⟩, 1, none, ⟨1, 5, []⟩, none, 16⟩] := by
  have hthree : 3 ≤ 3 := Nat.le_refl 3
  obtain ⟨-, hlist, -⟩ := trace_agrees_with_decoding hthree {} secondUnknown
  obtain ⟨-, -, -, -, -, -, hdescriptor, -⟩ :=
    trace_agrees_with_decoding hthree {} ownedSecondUnknown
  exact ⟨hthree, hlist, hdescriptor⟩

end AccessControl
