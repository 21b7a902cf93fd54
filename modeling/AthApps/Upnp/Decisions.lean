import AthApps.Upnp.Subscribe

/-!
# What SUBSCRIBE and UNSUBSCRIBE decide

The rules that the source quotes, stated for the lines of a header, and the exact
condition on the text under which the two functions follow them.  They do not when
SID comes with NT alone, when an NT or a SID is not valid and nothing conflicts, when
what CALLBACK has is no url, and whenever UNSUBSCRIBE gives a uuid.
-/

set_option autoImplicit false

namespace AthApps.Upnp

open AthApps.Lib AthApps.Http Option List
open Function (update_self)

/-! ## What the requests ask for -/

def HasNt (options : List HeaderOption) : Prop := ∃ value, .nt value ∈ options

def HasCallback (options : List HeaderOption) : Prop := ∃ urls, .callback urls ∈ options

def HasSid (options : List HeaderOption) : Prop := sids options ≠ []

def Conflicting (options : List HeaderOption) : Prop :=
  HasSid options ∧ (HasNt options ∨ HasCallback options)

def givenSid (options : List HeaderOption) : Option Bytes :=
  if ∀ value ∈ sids options, (sidUuid value).isSome then (sids options).getLast?.bind sidUuid
  else none

def trimmed (value : Bytes) : Bytes := (value.reverse.dropWhile isSpace).reverse

def AsksForEvents (options : List HeaderOption) : Prop :=
  HasNt options ∧ ∀ value, .nt value ∈ options → equalFold (trimmed value) (letters "upnp:event")

def NamesUrl (options : List HeaderOption) : Prop :=
  ∃ before url after, .callback (before ++ 60 :: url ++ 62 :: after) ∈ options ∧ 62 ∉ url ∧
    equalFold (url.take 7) (letters "http://")

def Starts (options : List HeaderOption) : Prop := AsksForEvents options ∧ NamesUrl options

def Regular (options : List HeaderOption) : Prop :=
  (∀ value, .nt value ∈ options → isEvent value = true) ∧
    ∀ value ∈ sids options, (sidUuid value).isSome

/-! ## What the lines leave -/

section Parsing

variable {options : List HeaderOption}

@[simp] theorem hasNt_cons {option : HeaderOption} :
    HasNt (option :: options) ↔ (∃ value, option = .nt value) ∨ HasNt options := by
  simp only [HasNt, mem_cons, exists_or, eq_comm]

@[simp] theorem hasCallback_cons {option : HeaderOption} :
    HasCallback (option :: options) ↔ (∃ urls, option = .callback urls) ∨ HasCallback options := by
  simp only [HasCallback, mem_cons, exists_or, eq_comm]

@[simp] theorem sids_nil : sids [] = [] := rfl

variable {value : Bytes}

@[simp] theorem sids_nt : sids (.nt value :: options) = sids options := rfl

@[simp] theorem sids_callback {urls : Bytes} :
    sids (.callback urls :: options) = sids options := rfl

@[simp] theorem sids_sid : sids (.sid value :: options) = value :: sids options := rfl

@[simp] theorem sids_other : sids (.other :: options) = sids options := rfl

theorem lastUuid_cons {first : Bytes} {values : List Bytes} (valid : sidUuid value = some first)
    (others : ∀ value ∈ values, (sidUuid value).isSome) (before : Option Bytes) :
    (values.getLast?.bind sidUuid).or (some first) =
      ((value :: values).getLast?.bind sidUuid).or before := by
  rw [getLast?_cons]
  cases last : values.getLast? with
  | none => simp [valid]
  | some final =>
    obtain ⟨uuid, read⟩ := isSome_iff_exists.mp (others final (mem_of_getLast? last))
    simp [read]

variable {memory : Nat → Bool}

variable {before after : Parsed}

theorem parseOptions_ok (parsed : parseOptions memory options before = .ok after) :
    Regular options ∧ (after.gotNt = true ↔ before.gotNt = true ∨ HasNt options) ∧
      (after.callbackUrls.isSome ↔ before.callbackUrls.isSome ∨ HasCallback options) ∧
      after.uuid = ((sids options).getLast?.bind sidUuid).or before.uuid := by
  induction options generalizing before with
  | nil =>
    cases parsed
    simp [Regular, HasNt, HasCallback]
  | cons option rest ih =>
    cases option with
    | nt value =>
      rw [parseOptions] at parsed
      split at parsed
      next event =>
        obtain ⟨regular, nt, callback, uuid⟩ := ih parsed
        refine ⟨?_, by simpa using nt, by simpa using callback, uuid⟩
        simpa [Regular, event] using regular
      next => cases parsed
    | callback urls =>
      rw [parseOptions] at parsed
      split at parsed
      next =>
        obtain ⟨regular, nt, callback, uuid⟩ := ih parsed
        refine ⟨?_, by simpa using nt, by simpa using callback, uuid⟩
        simpa [Regular] using regular
      next => cases parsed
    | sid value =>
      rw [parseOptions] at parsed
      split at parsed
      next => cases parsed
      next first valid =>
        obtain ⟨regular, nt, callback, uuid⟩ := ih parsed
        refine ⟨?_, by simpa using nt, by simpa using callback, ?_⟩
        · simpa [Regular, valid] using regular
        · rw [uuid]
          exact lastUuid_cons valid regular.2 _
    | other =>
      rw [parseOptions] at parsed
      obtain ⟨regular, nt, callback, uuid⟩ := ih parsed
      refine ⟨?_, by simpa using nt, by simpa using callback, uuid⟩
      simpa [Regular] using regular

theorem parseOptions_error {refusal : Refusal}
    (parsed : parseOptions memory options before = .error refusal) :
    (refusal = .badRequest ∧ ¬ Regular options) ∨ refusal = .internalServerError := by
  induction options generalizing before with
  | nil => cases parsed
  | cons option rest ih =>
    cases option with
    | nt value =>
      rw [parseOptions] at parsed
      split at parsed
      next event =>
        refine (ih parsed).imp_left (And.imp_right ?_)
        simp [Regular, event]
      next event =>
        cases parsed
        exact Or.inl ⟨rfl, fun regular => event (regular.1 value mem_cons_self)⟩
    | callback urls =>
      rw [parseOptions] at parsed
      split at parsed
      next => exact (ih parsed).imp_left (And.imp_right (by simp [Regular]))
      next =>
        cases parsed
        exact Or.inr rfl
    | sid value =>
      rw [parseOptions] at parsed
      split at parsed
      next invalid =>
        cases parsed
        refine Or.inl ⟨rfl, fun regular => ?_⟩
        simpa [invalid] using regular.2 value (by simp)
      next uuid valid => exact (ih parsed).imp_left (And.imp_right (by simp [Regular, valid]))
    | other =>
      rw [parseOptions] at parsed
      exact (ih parsed).imp_left (And.imp_right (by simp [Regular]))

theorem givenSid_isSome (valid : ∀ value ∈ sids options, (sidUuid value).isSome) :
    (givenSid options).isSome ↔ HasSid options := by
  rw [givenSid, if_pos valid, HasSid]
  cases last : (sids options).getLast? with
  | none => simp [getLast?_eq_none_iff.mp last]
  | some value =>
    have member := mem_of_getLast? last
    simpa [valid value member] using ne_nil_of_mem member

theorem parseOptions_done (parsed : parseOptions memory options ⟨false, none, none⟩ = .ok after) :
    Regular options ∧ (after.gotNt = true ↔ HasNt options) ∧
      (after.callbackUrls.isSome ↔ HasCallback options) ∧ after.uuid = givenSid options ∧
      (after.uuid.isSome ↔ HasSid options) := by
  obtain ⟨regular, nt, callback, uuid⟩ := parseOptions_ok parsed
  have given : after.uuid = givenSid options := by rw [uuid, givenSid, if_pos regular.2, or_none]
  refine ⟨regular, by simpa using nt, by simpa using callback, given, ?_⟩
  rw [given]
  exact givenSid_isSome regular.2

theorem parseSids_ok {before after : Option Bytes} (parsed : parseSids options before = .ok after) :
    (∀ value ∈ sids options, (sidUuid value).isSome) ∧
      after = ((sids options).getLast?.bind sidUuid).or before := by
  induction options generalizing before with
  | nil =>
    cases parsed
    simp
  | cons option rest ih =>
    cases option with
    | sid value =>
      rw [parseSids] at parsed
      split at parsed
      next => cases parsed
      next first valid =>
        obtain ⟨others, uuid⟩ := ih parsed
        refine ⟨by simpa [valid] using others, ?_⟩
        rw [uuid]
        exact lastUuid_cons valid others _
    | nt value => exact ih parsed
    | callback urls => exact ih parsed
    | other => exact ih parsed

theorem parseSids_error {before : Option Bytes} {refusal : Refusal}
    (parsed : parseSids options before = .error refusal) :
    ¬ ∀ value ∈ sids options, (sidUuid value).isSome := by
  induction options generalizing before with
  | nil => cases parsed
  | cons option rest ih =>
    cases option with
    | sid value =>
      rw [parseSids] at parsed
      split at parsed
      next invalid =>
        intro all
        simpa [invalid] using all value (by simp)
      next uuid valid =>
        intro all
        exact ih parsed fun value member => all value (by simp [member])
    | nt value => exact ih parsed
    | callback urls => exact ih parsed
    | other => exact ih parsed

end Parsing

/-! ## What the list does -/

namespace Device

section Lists

variable {d : Device} {subs : List Nat}

def Distinct (d : Device) : Prop :=
  ∀ i j s t, d.subscription i = some s → d.subscription j = some t → s.uuid = t.uuid → i = j

variable {after : Device} {uuid : Bytes} {i : Nat}

theorem findLoop_some {fuel i j : Nat} (found : d.findLoop uuid fuel i = some (some j)) :
    ∃ s, d.subscription j = some s ∧ s.uuid = uuid := by
  induction fuel generalizing i with
  | zero => cases found
  | succ fuel ih =>
    rw [findLoop] at found
    obtain ⟨s, here, found⟩ := bind_eq_some_iff.mp found
    split at found
    next same =>
      cases found
      exact ⟨s, here, same⟩
    · obtain ⟨next, -, found⟩ := bind_eq_some_iff.mp found
      split at found
      · cases found
      · exact ih found

theorem subscriptionFind_some {j : Nat} (found : d.subscriptionFind uuid = some (some j)) :
    ∃ s, d.subscription j = some s ∧ s.uuid = uuid := by
  unfold subscriptionFind at found
  split at found
  · cases found
  · exact findLoop_some found

theorem findLoop_none {uuid : Bytes} {steady : Prop} {pre post : List Nat} {i fuel : Nat}
    (sound : d.Subs steady (pre ++ i :: post)) (found : d.findLoop uuid fuel i = some none) :
    ∀ j ∈ i :: post, ∀ s, d.subscription j = some s → s.uuid ≠ uuid := by
  induction post generalizing pre i fuel with
  | nil =>
    cases fuel with
    | zero => cases found
    | succ fuel =>
      rw [findLoop] at found
      obtain ⟨s, here, found⟩ := bind_eq_some_iff.mp found
      split at found
      · cases found
      next other =>
        intro j member t known
        rw [mem_singleton.mp member, here] at known
        cases known
        exact other
  | cons k post ih =>
    cases fuel with
    | zero => cases found
    | succ fuel =>
      rw [findLoop] at found
      obtain ⟨s, here, found⟩ := bind_eq_some_iff.mp found
      split at found
      · cases found
      next other =>
        have next : d.subscriptions.next i = some k := sound.held.next_inner
        have apart : d.subscriptions.head ≠ some k := sound.held.head_apart (by simp)
        have sound' : d.Subs steady ((pre ++ [i]) ++ k :: post) := by simpa using sound
        rw [next, bind_eq_bind, bind_some, if_neg apart] at found
        intro j member t known
        rcases mem_cons.mp member with rfl | member
        · rw [here] at known
          cases known
          exact other
        · exact ih sound' found j member t known

theorem subscriptionFind_none {steady : Prop} (sound : d.Subs steady subs)
    (found : d.subscriptionFind uuid = some none) :
    ∀ j s, d.subscription j = some s → s.uuid ≠ uuid := by
  intro j s known
  have member := sound.mem known
  unfold subscriptionFind at found
  rw [sound.held.head] at found
  cases subs with
  | nil => cases member
  | cons i rest => exact @findLoop_none d uuid steady [] rest i _ sound found j member s known

theorem subscriptionFind_of_distinct {steady : Prop}
    {s : Subscription} (sound : d.Subs steady subs) (distinct : d.Distinct)
    (here : d.subscription i = some s) (same : s.uuid = uuid) :
    d.subscriptionFind uuid = some (some i) := by
  obtain ⟨found, finds, -⟩ := sound.subscriptionFind uuid
  rw [finds]
  cases found with
  | none => exact absurd same (subscriptionFind_none sound finds i s here)
  | some j =>
    obtain ⟨t, there, named⟩ := subscriptionFind_some finds
    rw [distinct j i t s there here (named.trans same.symm)]

theorem findLoop_clock (now : Int) (uuid : Bytes) (fuel i : Nat) :
    findLoop { d with clock := now } uuid fuel i = d.findLoop uuid fuel i := by
  induction fuel generalizing i with
  | zero => rfl
  | succ fuel ih =>
    rw [findLoop, findLoop]
    simp only [ih]

theorem subscriptionFind_clock (now : Int) (uuid : Bytes) :
    subscriptionFind { d with clock := now } uuid = d.subscriptionFind uuid := by
  simp only [subscriptionFind, findLoop_clock]

theorem subscriptionUnlink_keeps (unlinks : d.subscriptionUnlink i = some after) :
    after.subscription = d.subscription ∧ after.allocated = d.allocated := by
  obtain ⟨ring, -, same⟩ := bind_eq_some_iff.mp unlinks
  cases same
  exact ⟨rfl, rfl⟩

theorem subscriptionLinkToEnd_keeps (links : d.subscriptionLinkToEnd i = some after) :
    after.subscription = d.subscription ∧ after.allocated = d.allocated := by
  obtain ⟨ring, -, same⟩ := bind_eq_some_iff.mp links
  cases same
  exact ⟨rfl, rfl⟩

theorem subscriptionRenew_some {now : Int} (found : d.subscriptionFind uuid = some (some i))
    (renewed : d.subscriptionRenew now uuid = some after) :
    ∃ s, after.subscription i = some s ∧ s.uuid = uuid := by
  obtain ⟨s, here, named⟩ := subscriptionFind_some found
  unfold subscriptionRenew at renewed
  dsimp only at renewed
  rw [subscriptionFind_clock, found] at renewed
  simp only [bind_eq_bind, bind_some] at renewed
  obtain ⟨unlinked, unlinks, renewed⟩ := bind_eq_some_iff.mp renewed
  obtain ⟨t, known, links⟩ := bind_eq_some_iff.mp renewed
  rw [(subscriptionUnlink_keeps unlinks).1, here] at known
  cases known
  rw [(subscriptionLinkToEnd_keeps links).1]
  exact ⟨_, update_self .., named⟩

theorem subscriptionRenew_none {now : Int} (found : d.subscriptionFind uuid = some none)
    (renewed : d.subscriptionRenew now uuid = some after) : { d with clock := now } = after := by
  unfold subscriptionRenew at renewed
  dsimp only at renewed
  rw [subscriptionFind_clock, found] at renewed
  exact some.inj renewed

theorem subscriptionRemove_allocated
    (removes : d.subscriptionRemove i = some after) : after.allocated = d.allocated := by
  obtain ⟨unlinked, unlinks, destroys⟩ := bind_eq_some_iff.mp removes
  obtain ⟨s, -, deletes⟩ := bind_eq_some_iff.mp destroys
  obtain ⟨t, -, same⟩ := bind_eq_some_iff.mp deletes
  cases same
  exact (subscriptionUnlink_keeps unlinks).2

theorem ageLoop_allocated {after : Device} {now : Int} {fuel : Nat}
    (aged : ageLoop now fuel d = some after) : after.allocated = d.allocated := by
  induction fuel generalizing d with
  | zero =>
    rw [ageLoop] at aged
    split at aged
    · cases aged
      rfl
    · obtain ⟨s, -, aged⟩ := bind_eq_some_iff.mp aged
      split at aged
      · cases aged
      · cases aged
        rfl
  | succ fuel ih =>
    rw [ageLoop] at aged
    split at aged
    · cases aged
      rfl
    · obtain ⟨s, -, aged⟩ := bind_eq_some_iff.mp aged
      split at aged
      · obtain ⟨removed, removes, aged⟩ := bind_eq_some_iff.mp aged
        exact (ih aged).trans (subscriptionRemove_allocated removes)
      · cases aged
        rfl

theorem subscriptionMakeRoom_allocated
    (made : d.subscriptionMakeRoom = some after) : after.allocated = d.allocated := by
  unfold subscriptionMakeRoom at made
  split at made
  · obtain ⟨i, -, removes⟩ := bind_eq_some_iff.mp made
    exact subscriptionRemove_allocated removes
  · cases made
    rfl

theorem subscriptionRemove_gone
    (removes : d.subscriptionRemove i = some after) : after.subscription i = none := by
  obtain ⟨unlinked, -, destroys⟩ := bind_eq_some_iff.mp removes
  obtain ⟨s, -, deletes⟩ := bind_eq_some_iff.mp destroys
  obtain ⟨t, -, same⟩ := bind_eq_some_iff.mp deletes
  cases same
  exact update_self ..

theorem firstEvent_kept {s : Subscription} {q : List Nat} (name : s.id = i)
    (good : (d.outbox s).Sound q) (empty : s.nQueue = 0) {data : Bytes}
    {firstEvent registers : Bool}
    (added : ((d.outbox s).eventAdd data firstEvent registers).bind (fun added =>
      if added.2 = true then (d.setOutbox added.1).subscriptionRemove i
      else some ((d.setOutbox added.1).eventSendAllLater registers)) = some after) :
    if firstEvent = true then ∃ t, after.subscription i = some t ∧ t.uuid = s.uuid
    else after.subscription i = none := by
  obtain ⟨t, failed, left, adds, does, fails, -, queued, -⟩ :=
    @Outbox.Sound.eventAdd _ q registers (fun _ => True) good data firstEvent
  have room : ¬ maxEventsQueued ≤ (d.outbox s).s.nQueue := by
    show ¬ maxEventsQueued ≤ s.nQueue
    rw [empty]
    decide
  rw [adds, bind_some] at added
  cases failed with
  | true =>
    have lost : firstEvent = false := (fails.mp rfl).resolve_left room
    rw [lost, if_neg (by decide)]
    exact subscriptionRemove_gone added
  | false =>
    have works : firstEvent = true := by
      by_contra lost
      simpa using fails.mpr (Or.inr (by simpa using lost))
    have later : (d.setOutbox t).eventSendAllLater registers = after := some.inj added
    rw [eventSendAllLater_queued (queued rfl)] at later
    rw [if_pos works, ← later]
    refine ⟨t.s, ?_, does.same.uuid⟩
    have id : t.s.id = i := does.same.id.trans name
    rw [← id]
    exact update_self ..

theorem Subs.started {steady : Prop} (sound : d.Subs steady subs) {r : Subscribe}
    (clock : steady → d.clock ≤ r.now) (registers : Bool) :
    ∃ after left, d.subscriptionStart r registers = some after ∧ after.Subs steady left ∧
      if r.memory = true ∧ r.firstEvent = true then
        ∃ s, after.subscription d.allocated = some s ∧ s.uuid = r.uuid
      else after.subscription d.allocated = none := by
  obtain ⟨second, middle, aged, sound2, kept2, -⟩ := (sound.advance clock).listAge r.now
  obtain ⟨third, left, made, sound3, kept3, room⟩ := sound2.room
  have age : second.allocated = d.allocated := @ageLoop_allocated { d with clock := r.now } _ _ _ aged
  have next : third.allocated = d.allocated := (subscriptionMakeRoom_allocated made).trans age
  have time : third.clock = r.now := kept3.clock.trans kept2.clock
  obtain ⟨after, final, done, sound', -⟩ := sound.start clock registers
  refine ⟨after, final, done, sound', ?_⟩
  rw [subscriptionStart] at done
  simp only [bind_eq_bind, aged, made, bind_some] at done
  split at done
  next lost =>
    cases done
    rw [if_neg (by simp [lost]), ← next]
    by_contra known
    exact Nat.lt_irrefl _ (sound3.old _ ((sound3.live _).mp known))
  next memory =>
  obtain ⟨ring, linked, sound4, -⟩ := sound3.link room r.nAddr r.uuid
  rw [subscriptionLinkToEnd, linked, ← time] at done
  have here : (third.joined ring r.nAddr r.uuid).subscription third.allocated =
      some (Outbox.created third.allocated r.nAddr r.uuid (third.clock + upnpSubscribeSec)) :=
    update_self ..
  obtain ⟨name, q, good⟩ := sound4.each _ _ here
  have kept := firstEvent_kept name good rfl done
  rw [next] at kept
  have works : r.memory = true := by simpa using memory
  simp only [works, true_and]
  exact kept

end Lists

/-! ## What is promised -/

def SameList (d after : Device) : Prop :=
  after.subscriptions = d.subscriptions ∧ after.subscription = d.subscription

def Renews (d : Device) (options : List HeaderOption) : Prop :=
  ∃ i s, d.subscription i = some s ∧ givenSid options = some s.uuid

def SidDenotes (bytes : Bytes) (i : Nat) (uuid : Bytes) : Prop :=
  ∀ options, sids options = sids (headerOptions bytes) → givenSid options = some uuid ∧
    ∀ (later : Device) (subs : List Nat) (s : Subscription), later.Subs False subs →
      later.Distinct → later.subscription i = some s → s.uuid = uuid →
        later.subscriptionFind uuid = some (some i)

structure Accepts (serving : Serving) (bytes : Bytes) (after : Device) (i : Nat)
    (uuid : Bytes) : Prop where
  listed : ∃ left s, after.Subs False left ∧ after.subscription i = some s ∧ s.uuid = uuid
  answer : bytes = accept uuid serving.date
  denotes : SidDenotes bytes i uuid

/-- What the quoted rules say. -/
structure Decided (d : Device) (serving : Serving) (options : List HeaderOption)
    (bytes : Bytes) (after : Device) : Prop where
  complete : Complete bytes
  conflict : Conflicting options → bytes = refuse .badRequest ∧ d.SameList after
  neither : ¬ Conflicting options → ¬ d.Renews options → ¬ Starts options →
    bytes = refuse .preconditionFailed ∧ d.SameList after
  renews : ¬ Conflicting options → d.Renews options → ∃ i s, d.subscription i = some s ∧
    givenSid options = some s.uuid ∧ Accepts serving bytes after i s.uuid
  starts : ¬ Conflicting options → Starts options →
    ∃ i, d.subscription i = none ∧ Accepts serving bytes after i serving.start.uuid

def SubscribeDecided (d : Device) (serving : Serving) (filename hdr : Bytes) : Prop :=
  ∃ bytes after, d.webConnectionParseSubscribe serving filename hdr = some (bytes, after) ∧
    d.Decided serving (headerOptions hdr) bytes after

def UnsubscribeDecided (d : Device) (subs : List Nat) (serving : Serving)
    (filename hdr : Bytes) : Prop :=
  ∃ bytes after left,
    d.webConnectionParseUnsubscribeText serving filename hdr = some (bytes, after) ∧
      Complete bytes ∧ after.subscriptions.Holds left ∧ left.Sublist subs ∧
      ∀ i ∈ subs, i ∈ left ↔ ∀ s, d.subscription i = some s →
        givenSid (headerOptions hdr) ≠ some s.uuid

/-! ## When it is kept -/

/-- The lines are regular where nothing conflicts, and a conflict comes with CALLBACK or a line
that is not regular; NT is then `upnp:event` to its end, and CALLBACK has a url. -/
def SubscribeFits (d : Device) (serving : Serving) (filename hdr : Bytes) : Prop :=
  let options := headerOptions hdr
  serving.page = true ∧
    if equalFold filename upnpWpsDeviceEventFile then
      parseOptions serving.urls options ⟨false, none, none⟩ ≠ .error .internalServerError ∧
      (Conflicting options → HasCallback options ∨ ¬ Regular options) ∧
      (¬ Conflicting options → Regular options ∧
        (HasNt options → HasCallback options → Starts options ∧
          serving.start.memory = true ∧ serving.start.firstEvent = true))
    else ¬ Conflicting options ∧ ¬ d.Renews options ∧ ¬ Starts options

/-- There is no subscription to be removed, or only none that is known in another file. -/
def UnsubscribeFits (d : Device) (serving : Serving) (filename hdr : Bytes) : Prop :=
  serving.page = true ∧ (givenSid (headerOptions hdr) = none ∨
    (equalFold filename upnpWpsDeviceEventFile = false ∧ ¬ d.Renews (headerOptions hdr)))

section Decisions

variable {d : Device} {subs : List Nat} {serving : Serving} {filename hdr : Bytes}

theorem refuse_ne_accept (refusal : Refusal) (uuid : Bytes) (date : Date) :
    refuse refusal ≠ accept uuid date := by
  have accepted : (accept uuid date)[9]? = some 50 := rfl
  have refused : (refuse refusal)[9]? ≠ some 50 := by cases refusal <;> decide
  intro same
  rw [same] at refused
  exact refused accepted

theorem refuse_injective {first second : Refusal} (same : refuse first = refuse second) :
    first = second := by
  cases first <;> cases second <;> first | rfl | exact absurd same (by decide)

variable {uuid : Bytes}

theorem sidDenotes_accept (sized : uuid.length = uuidSize) (i : Nat) (date : Date) :
    SidDenotes (accept uuid date) i uuid := by
  intro options same
  refine ⟨?_, fun later subs s sound distinct here named =>
    subscriptionFind_of_distinct sound distinct here named⟩
  rw [sids_accept] at same
  have read := sidUuid_format sized
  have all : ∀ value ∈ sids options, (sidUuid value).isSome := by
    intro value member
    rw [same, mem_singleton] at member
    rw [member, read]
    rfl
  rw [givenSid, if_pos all, same]
  exact read

variable {options : List HeaderOption}

theorem givenSid_length (given : givenSid options = some uuid) : uuid.length = uuidSize := by
  unfold givenSid at given
  split at given
  · obtain ⟨value, -, read⟩ := bind_eq_some_iff.mp given
    obtain ⟨text, -, parsed⟩ := bind_eq_some_iff.mp read
    exact uuidParse_length parsed
  · cases given

theorem sameList_refl (d : Device) : d.SameList d := ⟨rfl, rfl⟩

variable {refusal : Refusal} {after : Device}

theorem decided_refuse (same : d.SameList after)
    (refusal : Refusal) : d.Decided serving options (refuse refusal) after ↔
      (Conflicting options ∧ refusal = .badRequest) ∨
        (¬ Conflicting options ∧ ¬ d.Renews options ∧ ¬ Starts options ∧
          refusal = .preconditionFailed) := by
  constructor
  · intro decided
    by_cases conflict : Conflicting options
    · exact Or.inl ⟨conflict, refuse_injective (decided.conflict conflict).1⟩
    · right
      have stale : ¬ d.Renews options := by
        intro renews
        obtain ⟨i, s, -, -, accepts⟩ := decided.renews conflict renews
        exact refuse_ne_accept _ _ _ accepts.answer
      have idle : ¬ Starts options := by
        intro starts
        obtain ⟨i, -, accepts⟩ := decided.starts conflict starts
        exact refuse_ne_accept _ _ _ accepts.answer
      exact ⟨conflict, stale, idle, refuse_injective (decided.neither conflict stale idle).1⟩
  · rintro (⟨conflict, rfl⟩ | ⟨peace, stale, idle, rfl⟩)
    · exact ⟨refuse_complete _, fun _ => ⟨rfl, same⟩, fun peace => absurd conflict peace,
        fun peace => absurd conflict peace, fun peace => absurd conflict peace⟩
    · exact ⟨refuse_complete _, fun conflict => absurd conflict peace, fun _ _ _ => ⟨rfl, same⟩,
        fun _ renews => absurd renews stale, fun _ starts => absurd starts idle⟩

theorem not_renews (none : givenSid options = none) : ¬ d.Renews options := by
  rintro ⟨i, s, -, given⟩
  rw [none] at given
  cases given

theorem subscribeDecided_of_refuse
    (result : d.webConnectionParseSubscribe serving filename hdr = some (refuse refusal, after))
    (same : d.SameList after) :
    d.SubscribeDecided serving filename hdr ↔
      (Conflicting (headerOptions hdr) ∧ refusal = .badRequest) ∨
        (¬ Conflicting (headerOptions hdr) ∧ ¬ d.Renews (headerOptions hdr) ∧
          ¬ Starts (headerOptions hdr) ∧ refusal = .preconditionFailed) := by
  rw [← decided_refuse same]
  constructor
  · rintro ⟨bytes, other, given, decided⟩
    rw [result] at given
    cases given
    exact decided
  · exact fun decided => ⟨_, _, result, decided⟩

theorem subscribe_otherFile (page : serving.page = true)
    (other : ¬ equalFold filename upnpWpsDeviceEventFile) :
    d.SubscribeDecided serving filename hdr ↔ d.SubscribeFits serving filename hdr := by
  have result : d.webConnectionParseSubscribe serving filename hdr =
      some (refuse .preconditionFailed, d) := by
    rw [webConnectionParseSubscribe, if_neg (by simp [page]), if_pos other]
  rw [subscribeDecided_of_refuse result (sameList_refl d), SubscribeFits, if_neg other]
  simp [page]

theorem subscribe_refused (page : serving.page = true)
    (file : equalFold filename upnpWpsDeviceEventFile = true)
    (parsed : parseOptions serving.urls (headerOptions hdr) ⟨false, none, none⟩ = .error refusal) :
    d.SubscribeDecided serving filename hdr ↔ d.SubscribeFits serving filename hdr := by
  have result : d.webConnectionParseSubscribe serving filename hdr = some (refuse refusal, d) := by
    rw [webConnectionParseSubscribe, if_neg (by simp [page]), if_neg (by simp [file]), parsed]
  rw [subscribeDecided_of_refuse result (sameList_refl d), SubscribeFits, if_pos file, parsed]
  rcases parseOptions_error parsed with ⟨rfl, irregular⟩ | rfl
  · simp [page, irregular]
  · simp

theorem subscribe_sid {gotNt : Bool} (sound : d.Subs False subs) (page : serving.page = true)
    (file : equalFold filename upnpWpsDeviceEventFile = true)
    (parsed : parseOptions serving.urls (headerOptions hdr) ⟨false, none, none⟩ =
      .ok ⟨gotNt, none, some uuid⟩) :
    d.SubscribeDecided serving filename hdr ↔ d.SubscribeFits serving filename hdr := by
  obtain ⟨regular, nt, callback, given, sid⟩ := parseOptions_done parsed
  have noCallback : ¬ HasCallback (headerOptions hdr) := by simp [← callback]
  have hasSid : HasSid (headerOptions hdr) := sid.mp rfl
  have idle : ¬ Starts (headerOptions hdr) := by
    rintro ⟨-, before, url, after, member, -⟩
    exact noCallback ⟨_, member⟩
  have conflicting : Conflicting (headerOptions hdr) ↔ gotNt = true := by
    rw [Conflicting, ← nt]
    simp [hasSid, noCallback]
  have fits : d.SubscribeFits serving filename hdr ↔ gotNt = false := by
    rw [SubscribeFits, if_pos file, parsed, conflicting]
    simp [page, regular, noCallback]
  rw [fits]
  obtain ⟨after, left, renewed, sound', -⟩ :=
    @Subs.renew d False subs sound serving.start.now False.elim uuid
  obtain ⟨found, finds, -⟩ := sound.subscriptionFind uuid
  have result : d.webConnectionParseSubscribe serving filename hdr =
      match found with
      | none => some (refuse .preconditionFailed, after)
      | some i => (after.subscription i).bind fun s =>
        some (accept s.uuid serving.date, after) := by
    rw [webConnectionParseSubscribe, if_neg (by simp [page]), if_neg (by simp [file]), parsed]
    simp only [bind_eq_bind, finds, renewed, bind_some]
    cases found <;> rfl
  cases found with
  | none =>
    have same : d.SameList after := by
      rw [← subscriptionRenew_none finds renewed]
      exact sameList_refl d
    have stale : ¬ d.Renews (headerOptions hdr) := by
      rintro ⟨i, s, here, named⟩
      rw [← given] at named
      exact subscriptionFind_none sound finds i s here (some.inj named).symm
    rw [subscribeDecided_of_refuse result same, conflicting]
    simp [stale, idle]
  | some i =>
    obtain ⟨s, here, named⟩ := subscriptionFind_some finds
    obtain ⟨t, there, renamed⟩ := subscriptionRenew_some finds renewed
    dsimp only at result
    rw [there, bind_some, renamed] at result
    constructor
    · rintro ⟨bytes, other, got, decided⟩
      rw [result] at got
      cases got
      by_contra conflict
      have refused := (decided.conflict (conflicting.mpr (by simpa using conflict))).1
      exact refuse_ne_accept _ _ _ refused.symm
    · intro peace
      have calm : ¬ Conflicting (headerOptions hdr) := by simp [conflicting, peace]
      refine ⟨_, _, result, accept_complete _ _, fun conflict => absurd conflict calm, ?_, ?_,
        fun _ starts => absurd starts idle⟩
      · intro _ stale
        exact absurd ⟨i, s, here, by rw [← given, named]⟩ stale
      · intro _ _
        refine ⟨i, s, here, by rw [← given, named], ⟨⟨left, t, sound', there, ?_⟩, ?_, ?_⟩⟩
        · rw [renamed, named]
        · rw [named]
        · rw [named]
          exact sidDenotes_accept (givenSid_length (given.symm)) i _

/-- The lines come to their end with NT and urls and without a uuid. -/
theorem subscribe_start {urls : Bytes} (sound : d.Subs False subs)
    (page : serving.page = true) (file : equalFold filename upnpWpsDeviceEventFile = true)
    (parsed : parseOptions serving.urls (headerOptions hdr) ⟨false, none, none⟩ =
      .ok ⟨true, some urls, none⟩) :
    d.SubscribeDecided serving filename hdr ↔ d.SubscribeFits serving filename hdr := by
  obtain ⟨regular, nt, callback, given, sid⟩ := parseOptions_done parsed
  have hasNt : HasNt (headerOptions hdr) := nt.mp rfl
  have hasCallback : HasCallback (headerOptions hdr) := callback.mp rfl
  have stale : ¬ d.Renews (headerOptions hdr) := not_renews given.symm
  have calm : ¬ Conflicting (headerOptions hdr) := by
    rintro ⟨hasSid, -⟩
    simpa using sid.mpr hasSid
  have fits : d.SubscribeFits serving filename hdr ↔ Starts (headerOptions hdr) ∧
      serving.start.memory = true ∧ serving.start.firstEvent = true := by
    rw [SubscribeFits, if_pos file, parsed]
    simp [page, regular, calm, hasNt, hasCallback]
  rw [fits]
  obtain ⟨after, left, started, sound', kept⟩ :=
    @Subs.started d subs False sound serving.start False.elim serving.registers
  have result : d.webConnectionParseSubscribe serving filename hdr =
      some ((after.subscription d.allocated).elim (refuse .internalServerError)
        fun s => accept s.uuid serving.date, after) := by
    rw [webConnectionParseSubscribe, if_neg (by simp [page]), if_neg (by simp [file]), parsed]
    cases known : after.subscription d.allocated <;>
      simp only [bind_eq_bind, started, bind_some, known, Option.elim]
  split at kept
  next memory =>
    obtain ⟨s, here, named⟩ := kept
    rw [here, Option.elim] at result
    constructor
    · rintro ⟨bytes, other, got, decided⟩
      rw [result] at got
      cases got
      refine ⟨?_, memory⟩
      by_contra idle
      exact refuse_ne_accept _ _ _ (decided.neither calm stale idle).1.symm
    · rintro ⟨starts, -⟩
      refine ⟨_, _, result, accept_complete _ _, fun conflict => absurd conflict calm,
        fun _ _ idle => absurd starts idle, fun _ renews => absurd renews stale, ?_⟩
      intro _ _
      have fresh : d.subscription d.allocated = none := by
        by_contra known
        exact Nat.lt_irrefl _ (sound.old _ ((sound.live _).mp known))
      refine ⟨d.allocated, fresh, ⟨left, s, sound', here, named⟩, by rw [named], ?_⟩
      rw [named]
      exact sidDenotes_accept serving.sized _ _
  next lost =>
    rw [kept, Option.elim] at result
    constructor
    · rintro ⟨bytes, other, got, decided⟩
      rw [result] at got
      cases got
      by_cases starts : Starts (headerOptions hdr)
      · obtain ⟨i, -, accepts⟩ := decided.starts calm starts
        exact absurd accepts.answer (refuse_ne_accept _ _ _)
      · exact absurd (refuse_injective (decided.neither calm stale starts).1) (by decide)
    · rintro ⟨-, memory⟩
      exact absurd memory lost

theorem subscribeDecided_iff (sound : d.Subs False subs) (serving : Serving)
    (filename hdr : Bytes) :
    d.SubscribeDecided serving filename hdr ↔ d.SubscribeFits serving filename hdr := by
  by_cases page : serving.page = true
  swap
  · have result : d.webConnectionParseSubscribe serving filename hdr = some ([], d) := by
      rw [webConnectionParseSubscribe, if_pos (by simpa using page)]
    refine iff_of_false ?_ fun fits => page fits.1
    rintro ⟨bytes, after, got, decided⟩
    rw [result] at got
    cases got
    exact not_complete_nil decided.complete
  by_cases file : equalFold filename upnpWpsDeviceEventFile = true
  swap
  · exact subscribe_otherFile page file
  cases parsed : parseOptions serving.urls (headerOptions hdr) ⟨false, none, none⟩ with
  | error refusal => exact subscribe_refused page file parsed
  | ok after =>
    obtain ⟨regular, nt, callback, given, sid⟩ := parseOptions_done parsed
    obtain ⟨gotNt, callbackUrls, uuid⟩ := after
    cases uuid with
    | some uuid =>
      cases callbackUrls with
      | none => exact subscribe_sid sound page file parsed
      | some urls =>
        have hasCallback : HasCallback (headerOptions hdr) := callback.mp rfl
        have conflict : Conflicting (headerOptions hdr) := ⟨sid.mp rfl, Or.inr hasCallback⟩
        have result : d.webConnectionParseSubscribe serving filename hdr =
            some (refuse .badRequest, d) := by
          rw [webConnectionParseSubscribe, if_neg (by simp [page]), if_neg (by simp [file]),
            parsed]
        rw [subscribeDecided_of_refuse result (sameList_refl d), SubscribeFits, if_pos file, parsed]
        simp [page, conflict, hasCallback]
    | none =>
      have noSid : ¬ HasSid (headerOptions hdr) := by simp [← sid]
      have calm : ¬ Conflicting (headerOptions hdr) := fun conflict => noSid conflict.1
      have stale : ¬ d.Renews (headerOptions hdr) := not_renews given.symm
      -- without NT or without urls the request is refused, and both are asked for
      have refused (incomplete : ¬ (HasNt (headerOptions hdr) ∧
          HasCallback (headerOptions hdr))) (result : d.webConnectionParseSubscribe serving
          filename hdr = some (refuse .preconditionFailed, d)) :
          d.SubscribeDecided serving filename hdr ↔ d.SubscribeFits serving filename hdr := by
        have idle : ¬ Starts (headerOptions hdr) := by
          rintro ⟨⟨hasNt, -⟩, before, url, after, member, -⟩
          exact incomplete ⟨hasNt, _, member⟩
        rw [subscribeDecided_of_refuse result (sameList_refl d), SubscribeFits, if_pos file, parsed]
        simpa [page, calm, stale, idle, regular] using incomplete
      cases callbackUrls with
      | none =>
        refine refused (fun both => by simpa using callback.mpr both.2) ?_
        rw [webConnectionParseSubscribe, if_neg (by simp [page]), if_neg (by simp [file]),
          parsed]
      | some urls =>
        cases gotNt with
        | true => exact subscribe_start sound page file parsed
        | false =>
          refine refused (fun both => by simpa using nt.mpr both.1) ?_
          rw [webConnectionParseSubscribe, if_neg (by simp [page]),
            if_neg (by simp [file]), parsed]

theorem unsubscribe_refused (sound : d.Subs False subs)
    (result : d.webConnectionParseUnsubscribeText serving filename hdr = some (refuse refusal, d)) :
    d.UnsubscribeDecided subs serving filename hdr ↔ ¬ d.Renews (headerOptions hdr) := by
  constructor
  · rintro ⟨bytes, after, left, got, -, holds, -, exactly⟩ ⟨i, s, here, given⟩
    rw [result] at got
    cases got
    have same : left = subs := holds.unique sound.held
    have member := sound.mem here
    exact (exactly i member).mp (same ▸ member) s here given
  · intro stale
    refine ⟨_, _, subs, result, refuse_complete _, sound.held, List.Sublist.refl _, ?_⟩
    intro i member
    exact iff_of_true member fun s here given => stale ⟨i, s, here, given⟩

theorem unsubscribe_accepted
    (result : d.webConnectionParseUnsubscribeText serving filename hdr = some ([], after)) :
    ¬ d.UnsubscribeDecided subs serving filename hdr := by
  rintro ⟨bytes, other, left, got, whole, -⟩
  rw [result] at got
  cases got
  exact not_complete_nil whole

theorem unsubscribeDecided_iff (sound : d.Subs False subs) (serving : Serving)
    (filename hdr : Bytes) :
    d.UnsubscribeDecided subs serving filename hdr ↔ d.UnsubscribeFits serving filename hdr := by
  by_cases page : serving.page = true
  swap
  · have result : d.webConnectionParseUnsubscribeText serving filename hdr = some ([], d) := by
      rw [webConnectionParseUnsubscribeText, if_pos (by simpa using page)]
    exact iff_of_false (unsubscribe_accepted result) fun fits => page fits.1
  by_cases file : equalFold filename upnpWpsDeviceEventFile = true
  swap
  · have result : d.webConnectionParseUnsubscribeText serving filename hdr =
        some (refuse .preconditionFailed, d) := by
      rw [webConnectionParseUnsubscribeText, if_neg (by simp [page]), if_pos file]
    rw [unsubscribe_refused sound result, UnsubscribeFits]
    simp only [page, file, true_and]
    exact ⟨Or.inr, fun fits => fits.elim not_renews id⟩
  have fits : d.UnsubscribeFits serving filename hdr ↔ givenSid (headerOptions hdr) = none := by
    simp [UnsubscribeFits, page, file]
  rw [fits]
  cases parsed : parseSids (headerOptions hdr) none with
  | error refusal =>
    have result : d.webConnectionParseUnsubscribeText serving filename hdr =
        some (refuse refusal, d) := by
      rw [webConnectionParseUnsubscribeText, if_neg (by simp [page]), if_neg (by simp [file]),
        parsed]
    have none : givenSid (headerOptions hdr) = none := by
      rw [givenSid, if_neg (parseSids_error parsed)]
    rw [unsubscribe_refused sound result]
    exact iff_of_true (not_renews none) none
  | ok given =>
    obtain ⟨valid, last⟩ := parseSids_ok parsed
    have same : givenSid (headerOptions hdr) = given := by
      rw [givenSid, if_pos valid, last, or_none]
    cases given with
    | none =>
      have result : d.webConnectionParseUnsubscribeText serving filename hdr =
          some (refuse .preconditionFailed, d) := by
        rw [webConnectionParseUnsubscribeText, if_neg (by simp [page]),
          if_neg (by simp [file]), parsed]
      rw [unsubscribe_refused sound result]
      exact iff_of_true (not_renews same) same
    | some uuid =>
      obtain ⟨after, left, removed, -⟩ := sound.unsubscribe uuid
      have result : d.webConnectionParseUnsubscribeText serving filename hdr =
          some ([], after) := by
        rw [webConnectionParseUnsubscribeText, if_neg (by simp [page]),
          if_neg (by simp [file]), parsed]
        simp only [bind_eq_bind, removed, bind_some]
      exact iff_of_false (unsubscribe_accepted result) (by simp [same])

end Decisions

/-- The two requests in any state that is reached: each is decided as the rules say exactly where
the condition on its text holds. -/
theorem requests_decided {d : Device} (reached : Reaches step (fun _ _ => True) Device.init d) :
    ∃ subs, d.subscriptions.Holds subs ∧ ∀ serving filename hdr,
      (d.SubscribeDecided serving filename hdr ↔ d.SubscribeFits serving filename hdr) ∧
        (d.UnsubscribeDecided subs serving filename hdr ↔
          d.UnsubscribeFits serving filename hdr) := by
  obtain ⟨subs, kempt⟩ := kempt_of_reaches reached
  exact ⟨subs, kempt.subs.held, fun serving filename hdr =>
    ⟨subscribeDecided_iff kempt.subs serving filename hdr,
      unsubscribeDecided_iff kempt.subs serving filename hdr⟩⟩

def requestText (method : String) (lines : List String) : Bytes :=
  (letters method ++ letters " /wps_event HTTP/1.1" ++ Httpread.crlf) ++
    lines.flatMap (fun line => letters line ++ Httpread.crlf) ++ Httpread.crlf

/-- There is memory, and the new uuid is all ones. -/
def served : Serving where
  page := true
  urls _ := true
  start := ⟨5, true, List.replicate 16 1, 1, [7], true⟩
  registers := true
  date := ⟨4, 1, 0, 1970, 0, 0, 5⟩
  sized := rfl

/-- A request with both lines starts a subscription, and one without a uuid removes nothing. -/
theorem requests_decided_start : ∃ subs,
    Device.init.SubscribeDecided served upnpWpsDeviceEventFile
      (requestText "SUBSCRIBE" ["NT: upnp:event", "CALLBACK: <http://10.0.0.9:80/e>"]) ∧
    Device.init.UnsubscribeDecided subs served upnpWpsDeviceEventFile
      (requestText "UNSUBSCRIBE" ["HOST: 10.0.0.1"]) := by
  obtain ⟨subs, -, all⟩ := requests_decided (.start : Reaches step (fun _ _ => True) init init)
  have lines : headerOptions (requestText "SUBSCRIBE" ["NT: upnp:event",
      "CALLBACK: <http://10.0.0.9:80/e>"]) =
        [.nt (letters "upnp:event" ++ [13]), .callback (letters "<http://10.0.0.9:80/e>" ++ [13]),
          .other] := by decide
  refine ⟨subs, (all served _ _).1.mpr ⟨rfl, ?_⟩, (all served _ _).2.mpr ⟨rfl, Or.inl (by decide)⟩⟩
  rw [if_pos (by decide), lines]
  have event : isEvent (letters "upnp:event" ++ [13]) = true := by decide
  have whole : equalFold (trimmed (letters "upnp:event" ++ [13])) (letters "upnp:event") := by
    decide
  refine ⟨by simp [parseOptions, event, served], by simp [Conflicting, HasSid], fun _ => ⟨?_, ?_⟩⟩
  · simp [Regular, event]
  · intro hasNt _
    refine ⟨⟨⟨hasNt, ?_⟩, [], letters "http://10.0.0.9:80/e", [13], ?_, by decide,
      by decide⟩, rfl, rfl⟩
    · simpa using whole
    · simp [show letters "<http://10.0.0.9:80/e>" = 60 :: letters "http://10.0.0.9:80/e" ++ [62]
        from by decide]

/-- SID together with NT is taken for a renewal, and the answer to UNSUBSCRIBE is not written. -/
theorem sid_with_nt_not_refused : (∀ hdr ∈ [requestText "SUBSCRIBE" ["NT: upnp:event",
        "SID: uuid:01010101-0101-0101-0101-010101010101"], requestText "UNSUBSCRIBE"
        ["SID: uuid:01010101-0101-0101-0101-010101010101"]],
      (Httpread.hdrAnalyze { httpreadCreate 100 with hdr := hdr, gotHdr := true }).isSome) ∧
    ¬ Device.init.SubscribeDecided served upnpWpsDeviceEventFile
      (requestText "SUBSCRIBE" ["NT: upnp:event",
        "SID: uuid:01010101-0101-0101-0101-010101010101"]) ∧
    ∀ subs, ¬ Device.init.UnsubscribeDecided subs served upnpWpsDeviceEventFile
      (requestText "UNSUBSCRIBE" ["SID: uuid:01010101-0101-0101-0101-010101010101"]) := by
  have sound := (kempt_init False).subs
  have lines : headerOptions (requestText "SUBSCRIBE" ["NT: upnp:event",
      "SID: uuid:01010101-0101-0101-0101-010101010101"]) = [.nt (letters "upnp:event" ++ [13]),
        .sid (letters "uuid:01010101-0101-0101-0101-010101010101" ++ [13]), .other] := by
    decide
  refine ⟨by decide, ?_, fun subs => ?_⟩
  · rw [subscribeDecided_iff sound]
    rintro ⟨-, fits⟩
    rw [if_pos (by decide), lines] at fits
    have conflict : Conflicting [.nt (letters "upnp:event" ++ [13]),
        .sid (letters "uuid:01010101-0101-0101-0101-010101010101" ++ [13]), .other] := by
      simp [Conflicting, HasSid]
    have regular : Regular [.nt (letters "upnp:event" ++ [13]),
        .sid (letters "uuid:01010101-0101-0101-0101-010101010101" ++ [13]), .other] := by
      have event : isEvent (letters "upnp:event" ++ [13]) = true := by decide
      have uuid : (sidUuid (letters "uuid:01010101-0101-0101-0101-010101010101" ++
        [13])).isSome = true := by decide
      simp [Regular, event, uuid]
    rcases fits.2.1 conflict with callback | irregular
    · simp [HasCallback] at callback
    · exact irregular regular
  · have parsed : parseSids (headerOptions (requestText "UNSUBSCRIBE"
        ["SID: uuid:01010101-0101-0101-0101-010101010101"])) none =
          .ok (some (List.replicate 16 1)) := by decide
    have result : Device.init.webConnectionParseUnsubscribeText served upnpWpsDeviceEventFile
        (requestText "UNSUBSCRIBE" ["SID: uuid:01010101-0101-0101-0101-010101010101"]) =
          some ([], Device.init) := by
      rw [webConnectionParseUnsubscribeText, if_neg (by decide), if_neg (by decide), parsed]
      rfl
    exact unsubscribe_accepted result

end Device

end AthApps.Upnp
