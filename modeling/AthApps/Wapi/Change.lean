import AthApps.Lib.Digest
import AthApps.Wapi.Asue
import AthApps.Wapi.Machine
import Mathlib.Data.List.Induction

/-!
# What a step does to an entry

`step_follows` says once and for all what a step of the machine can do to an
entry of the table, and `Reaches.entry` turns it into the induction rule for
properties of an entry and its past.
-/

set_option autoImplicit false

namespace AthApps.Wapi

open AthApps.Lib Option
open List hiding Vector

def Heard (cfg : Config) (vap : Vap) (input : Input) (i : Slot) (frame : Bytes) : Prop :=
  ∃ mac whole, input.event = .fromSta mac whole ∧ frame = received whole ∧
    apGetSta mac vap.table = some i ∧ cfg.waiPolicy &&& 0x0C ≠ 0

def heard (cfg : Config) (vap : Vap) (input : Input) : Option (Slot × Bytes) :=
  match input.event with
  | .fromSta mac whole =>
    if cfg.waiPolicy &&& 0x0C = 0 then none
    else (apGetSta mac vap.table).map fun i => (i, received whole)
  | _ => none

theorem heard_iff {cfg : Config} {vap : Vap} {input : Input} {i : Slot} {frame : Bytes} :
    heard cfg vap input = some (i, frame) ↔ Heard cfg vap input i frame := by
  constructor
  · intro found
    rw [heard] at found
    split at found
    next mac whole event =>
      split at found
      · cases found
      next enabled =>
        obtain ⟨j, position, same⟩ := map_eq_some_iff.mp found
        cases same
        exact ⟨mac, whole, event, rfl, position, enabled⟩
    next => cases found
  · rintro ⟨mac, whole, event, rfl, found, enabled⟩
    simp [heard, event, enabled, found]

/-- What is asked of the frame that came in, if one did, can be computed. -/
instance Heard.decidable {cfg : Config} {vap : Vap} {input : Input}
    {holds : Slot → Bytes → Prop} [∀ i frame, Decidable (holds i frame)] :
    Decidable (∀ i frame, Heard cfg vap input i frame → holds i frame) :=
  decidable_of_iff (∀ pair ∈ heard cfg vap input, holds pair.1 pair.2) (by
    constructor
    · intro all i frame came
      exact all (i, frame) (heard_iff.mpr came)
    · intro all pair came
      exact all pair.1 pair.2 (heard_iff.mp came))

/-- A response of the server came in. -/
def Answered (cfg : Config) (input : Input) (frame : Bytes) : Prop :=
  ∃ whole, input.event = .fromAs whole ∧ frame = whole.take fromAsLen ∧
    slice frame headLen 6 = cfg.macaddr.toList

/-- The value of an entry after a step, and the marks that the step left. -/
inductive Change (cfg : Config) (vap : Vap) (input : Input) (i : Slot) : Sta × List Mark → Prop
  | none : Change cfg vap input i (vap.table i, [])
  | assoc (mt : AssoMt) {result : Sta × List Mark} (event : input.event = .assoc mt)
      (position : apGetStaPos mt.mac vap.table = some i)
      (initiated : initiateEntry cfg input i mt = some result) : Change cfg vap input i result
  | aging (mac : Mac) (event : input.event = .aging mac)
      (found : apGetSta mac vap.table = some i) : Change cfg vap input i (Sta.zero, [.reset])
  | rekey (ok : Bool) (status : (vap.table i).status = .authenticated) :
      Change cfg vap input i (uskRekeyHandle cfg input.now ok (vap.table i))
  | announce (msksa : Msksa) (gnonce : List UInt32)
      (told : announced (vap.table i).status = true) :
      Change cfg vap input i (announceTo cfg input.now msksa gnonce (input.sent i 0) (vap.table i))
  -- the announcement was not sent, and the timer for the unicast key runs out as well
  | announceRekey (msksa : Msksa) (gnonce : List UInt32) (ok : Bool)
      (failed : input.sent i 0 = false) (status : (vap.table i).status = .authenticated) :
      Change cfg vap input i (andThen (announceTo cfg input.now msksa gnonce false (vap.table i))
          (uskRekeyHandle cfg input.now ok))
  | ignored {frame : Bytes} (heard : Heard cfg vap input i frame) :
      Change cfg vap input i (vap.table i, [.received frame])
  | access {frame : Bytes} {result : Sta × List Mark} (heard : Heard cfg vap input i frame)
      (kind : getPacketSubType frame = SubType.staAcessRequest.code)
      (processed : processAccessRequest cfg input i frame (vap.table i) = some result) :
      Change cfg vap input i (result.1, .received frame :: result.2)
  | usk {frame : Bytes} {result : Sta × List Mark} (heard : Heard cfg vap input i frame)
      (kind : getPacketSubType frame = SubType.uskNegResponse.code)
      (processed :
        processUskResponse cfg input i vap.msksa vap.gnonce frame (vap.table i) = some result) :
      Change cfg vap input i (result.1, .received frame :: result.2)
  | msk {frame : Bytes} (heard : Heard cfg vap input i frame)
      (kind : getPacketSubType frame = SubType.mskResponse.code)
      (valid : mskResponseValid cfg vap.msksa vap.gnonce (vap.table i) frame = true) :
      Change cfg vap input i ((mskAccepted input frame (resetTableItem (vap.table i))).1,
          .received frame :: (mskAccepted input frame (resetTableItem (vap.table i))).2)
  | rejected {frame : Bytes} {sta : Sta} {result : Sta × List Mark}
      (answered : Answered cfg input frame)
      (rejects : certificateAuthRes cfg input.now input.seed vap.table frame = .rejected i sta)
      (responded : accessAuthRes cfg input.now sta (frame.drop (headLen + 12)) = some result) :
      Change cfg vap input i (resetStaInfo, result.2 ++ [.deauth, .reset])
  | server {frame : Bytes} {sta : Sta} {result : Sta × List Mark}
      (answered : Answered cfg input frame)
      (accepts : certificateAuthRes cfg input.now input.seed vap.table frame = .accepted i sta)
      (responded : serverAccepted cfg input i frame sta = some result) :
      Change cfg vap input i (result.1, bkMarks cfg input.seed (vap.table i) ++ result.2)
  | retry {result : Sta × List Mark} {counts : Bool} (event : input.event = .timeoutRetry)
      (retried : retryEntry cfg input i (vap.table i) = some (result, counts)) :
      Change cfg vap input i result

section Put

variable (vap : Vap) (i : Slot) (result : Sta × List Mark)

@[simp] theorem put_table_self : (vap.put i result).table i = result.1 := by
  simp [Vap.put]

@[simp] theorem put_past_self : (vap.put i result).past i = vap.past i ++ result.2 := by
  simp [Vap.put]

variable {i} {j : Slot}

theorem put_table_other (differ : j ≠ i) : (vap.put i result).table j = vap.table j := by
  simp [Vap.put, differ]

theorem put_past_other (differ : j ≠ i) : (vap.put i result).past j = vap.past j := by
  simp [Vap.put, differ]

end Put

/-- Every entry of the later table comes from the earlier one by the relation. -/
def Each (relation : Slot → Sta × List Mark → Prop) (before after : Vap) : Prop :=
  ∀ j, ∃ result, relation j result ∧ after.table j = result.1 ∧
    after.past j = before.past j ++ result.2

variable {relation wider : Slot → Sta × List Mark → Prop} {before after vap : Vap}

theorem Each.refl (same : ∀ j, relation j (vap.table j, [])) : Each relation vap vap := by
  intro j
  exact ⟨(vap.table j, []), same j, rfl, (append_nil _).symm⟩

theorem Each.mono (each : Each relation before after)
    (implies : ∀ j result, relation j result → wider j result) : Each wider before after := by
  intro j
  obtain ⟨result, related, table, past⟩ := each j
  exact ⟨result, implies j result related, table, past⟩

variable {later : Vap}

theorem Each.congr (each : Each relation before after) (table : later.table = after.table)
    (past : later.past = after.past) : Each relation before later := by
  intro j
  obtain ⟨result, related, here, there⟩ := each j
  exact ⟨result, related, by rw [table, here], by rw [past, there]⟩

variable {result : Sta × List Mark} {i : Slot}

theorem Each.put (same : ∀ j, relation j (vap.table j, []))
    (here : relation i result) : Each relation vap (vap.put i result) := by
  intro j
  by_cases equal : j = i
  · subst equal
    exact ⟨result, here, put_table_self vap j result, put_past_self vap j result⟩
  · refine ⟨(vap.table j, []), same j, put_table_other vap result equal, ?_⟩
    rw [put_past_other vap result equal, append_nil]

theorem Each.put_next (each : Each relation before vap)
    (fresh : vap.past i = before.past i) (here : relation i result) :
    Each relation before (vap.put i result) := by
  intro j
  by_cases equal : j = i
  · subst equal
    exact ⟨result, here, put_table_self vap j result, by rw [put_past_self, fresh]⟩
  · obtain ⟨result', related, table, past⟩ := each j
    refine ⟨result', related, ?_, ?_⟩
    · rw [put_table_other vap result equal, table]
    · rw [put_past_other vap result equal, past]

def Untouched (slots : List Slot) (before vap : Vap) : Prop :=
  ∀ j ∈ slots, vap.table j = before.table j ∧ vap.past j = before.past j

theorem Untouched.refl (slots : List Slot) (vap : Vap) : Untouched slots vap vap :=
  fun _ _ => ⟨rfl, rfl⟩

theorem Untouched.tail {rest : List Slot} (untouched : Untouched (i :: rest) before vap) :
    Untouched rest before vap :=
  fun j member => untouched j (mem_cons_of_mem i member)

theorem Untouched.put {rest : List Slot} (untouched : Untouched (i :: rest) before vap)
    (absent : i ∉ rest) (result : Sta × List Mark) : Untouched rest before (vap.put i result) := by
  intro j member
  have differ : j ≠ i := fun equal => absent (equal ▸ member)
  rw [put_table_other vap result differ, put_past_other vap result differ]
  exact untouched.tail j member

variable {slots : List Slot} {input : Input} {cfg : Config}

theorem Untouched.congr (untouched : Untouched slots before vap) (table : later.table = vap.table)
    (past : later.past = vap.past) : Untouched slots before later := by
  intro j member
  rw [table, past]
  exact untouched j member

def Told (cfg : Config) (input : Input) (vap : Vap) (i : Slot) (result : Sta × List Mark) : Prop :=
  result = (vap.table i, []) ∨ announced (vap.table i).status = true ∧ ∃ msksa gnonce, result =
      announceTo cfg input.now msksa gnonce (input.sent i 0) (vap.table i)

theorem announceLoop_each (nodup : slots.Nodup) (each : Each (Told cfg input before) before vap)
    (untouched : Untouched slots before vap) :
    Each (Told cfg input before) before (announceLoop cfg input slots vap) := by
  induction slots generalizing vap with
  | nil =>
    rw [announceLoop]
    split
    · exact each.congr rfl rfl
    · exact each
  | cons i rest ih =>
    obtain ⟨absent, distinct⟩ := nodup_cons.mp nodup
    obtain ⟨table, past⟩ := untouched i mem_cons_self
    rw [announceLoop]
    split
    next told =>
      rw [table] at told ⊢
      have next := each.put_next (i := i) past (Or.inr ⟨told, vap.msksa, vap.gnonce, rfl⟩)
      dsimp only
      split
      · refine ih distinct ?_ ?_
        · exact next.congr rfl rfl
        · exact (untouched.put absent _).congr rfl rfl
      · exact next
    next => exact ih distinct each untouched.tail

theorem sendMskAnnouncementToAll_each {start : Vap}
    (table : start.table = vap.table) (past : start.past = vap.past) :
    Each (Told cfg input vap) vap (sendMskAnnouncementToAll cfg input start) := by
  rw [sendMskAnnouncementToAll]
  refine announceLoop_each (nodup_finRange 32) ?_ ?_
  · exact (Each.refl fun _ => Or.inl rfl).congr table past
  · exact (Untouched.refl _ vap).congr table past

theorem mskRekeyHandle_each (cfg : Config) (input : Input) (vap : Vap) :
    Each (Told cfg input vap) vap (mskRekeyHandle cfg input vap) := by
  rw [mskRekeyHandle]
  dsimp only
  split
  · exact (Each.refl fun _ => Or.inl rfl).congr rfl rfl
  · split
    · refine Each.congr (?_ : Each _ _ (sendMskAnnouncementToAll cfg input _)) rfl rfl
      apply sendMskAnnouncementToAll_each <;> rfl
    · apply sendMskAnnouncementToAll_each <;> rfl

theorem staMskRekeyHandle_each (cfg : Config) (input : Input) (vap : Vap) :
    Each (Told cfg input vap) vap (staMskRekeyHandle cfg input vap) := by
  have same : Each (Told cfg input vap) vap vap := Each.refl fun _ => Or.inl rfl
  rw [staMskRekeyHandle]
  split
  · exact same
  · split
    · exact mskRekeyHandle_each cfg input vap
    · exact same

theorem wapidRekeyMsk_each (cfg : Config) (input : Input) (vap : Vap) :
    Each (Told cfg input vap) vap (wapidRekeyMsk cfg input vap) := by
  have same : Each (Told cfg input vap) vap vap := Each.refl fun _ => Or.inl rfl
  rw [wapidRekeyMsk]
  split
  · split
    · exact same
    · exact mskRekeyHandle_each cfg input vap
  · exact same

def Rekeyed (cfg : Config) (input : Input) (vap : Vap) (i : Slot) (result : Sta × List Mark) :
    Prop :=
  result = (vap.table i, []) ∨ (vap.table i).status = .authenticated ∧
      result = uskRekeyHandle cfg input.now (input.sent i 1) (vap.table i)

theorem rekeyLoop_each (nodup : slots.Nodup) (each : Each (Rekeyed cfg input before) before vap)
    (untouched : Untouched slots before vap) :
    Each (Rekeyed cfg input before) before (rekeyLoop cfg input slots vap) := by
  induction slots generalizing vap with
  | nil => exact each
  | cons i rest ih =>
    obtain ⟨absent, distinct⟩ := nodup_cons.mp nodup
    obtain ⟨table, past⟩ := untouched i mem_cons_self
    rw [rekeyLoop]
    split
    next due =>
      rw [table] at due ⊢
      have status : (before.table i).status = .authenticated := by
        simp only [uskRekeyDue, Bool.and_eq_true, beq_iff_eq] at due
        exact due.1.1
      exact ih distinct (each.put_next past (Or.inr ⟨status, rfl⟩)) (untouched.put absent _)
    next => exact ih distinct each untouched.tail

theorem wapidRekeyUsk_each (cfg : Config) (input : Input) (vap : Vap) :
    Each (Rekeyed cfg input vap) vap (wapidRekeyUsk cfg input vap) := by
  have same : Each (Rekeyed cfg input vap) vap vap := Each.refl fun _ => Or.inl rfl
  rw [wapidRekeyUsk]
  split
  · exact rekeyLoop_each (nodup_finRange 32) same (Untouched.refl _ vap)
  · exact same

def Retried (cfg : Config) (input : Input) (vap : Vap) (i : Slot) (result : Sta × List Mark) :
    Prop :=
  result = (vap.table i, []) ∨
    ∃ counts, retryEntry cfg input i (vap.table i) = some (result, counts)

theorem retryLoop_each {waiting waited : Nat} (nodup : slots.Nodup)
    (each : Each (Retried cfg input before) before vap) (untouched : Untouched slots before vap)
    (runs : retryLoop cfg input slots vap waiting = some (later, waited)) :
    Each (Retried cfg input before) before later := by
  induction slots generalizing vap waiting with
  | nil =>
    cases runs
    exact each
  | cons i rest ih =>
    obtain ⟨absent, distinct⟩ := nodup_cons.mp nodup
    obtain ⟨table, past⟩ := untouched i mem_cons_self
    rw [retryLoop] at runs
    split at runs
    next => cases runs
    next result counts retried =>
      rw [table] at retried
      have next := each.put_next past (Or.inr ⟨counts, retried⟩)
      have left := untouched.put absent result
      dsimp only at runs
      split at runs
      · refine ih distinct ?_ ?_ runs
        · exact next.congr rfl rfl
        · exact left.congr rfl rfl
      · exact ih distinct next left runs

theorem timeoutRetry_each (runs : timeoutRetry cfg input vap = some after) :
    Each (Retried cfg input vap) vap after := by
  rw [timeoutRetry, map_eq_some_iff] at runs
  obtain ⟨⟨later, waited⟩, loop, final⟩ := runs
  have each := retryLoop_each (nodup_finRange 32) (Each.refl fun _ => Or.inl rfl)
    (Untouched.refl _ vap) loop
  dsimp only at final
  split at final
  · subst final
    exact each.congr rfl rfl
  · subst final
    exact each

section Steps

variable {cfg : Config} {input : Input}

theorem Each.change_refl : Each (Change cfg vap input) vap vap :=
  Each.refl fun _ => .none

variable {result : Sta × List Mark}

theorem Each.change_put {i : Slot} (change : Change cfg vap input i result) :
    Each (Change cfg vap input) vap (vap.put i result) :=
  Each.put (fun _ => .none) change

theorem Told.change {i : Slot} (told : Told cfg input vap i result) :
    Change cfg vap input i result := by
  obtain rfl | ⟨status, msksa, gnonce, rfl⟩ := told
  · exact .none
  · exact .announce msksa gnonce status

theorem authInitiate_follows {mt : AssoMt} (event : input.event = .assoc mt)
    (runs : authInitiate cfg input mt vap = some after) :
    Each (Change cfg vap input) vap after := by
  rw [authInitiate] at runs
  split at runs
  next =>
    cases runs
    exact Each.change_refl
  next i position =>
    split at runs
    · cases runs
    · obtain ⟨result, initiated, rfl⟩ := map_eq_some_iff.mp runs
      exact Each.change_put (.assoc mt event position initiated)

theorem told_put_zero {i j : Slot}
    (told : Told cfg input (vap.put i (Sta.zero, [.reset])) j result) :
    Told cfg input vap j result ∧ j ≠ i ∨ result = (Sta.zero, []) ∧ j = i := by
  by_cases equal : j = i
  · subst equal
    obtain rfl | ⟨status, -⟩ := told
    · simp
    · simp [announced, Sta.zero] at status
  · rw [Told, put_table_other vap _ equal] at told
    exact Or.inl ⟨told, equal⟩

variable {mac : Mac}

theorem staTimeoutHandle_follows (event : input.event = .aging mac) :
    Each (Change cfg vap input) vap (staTimeoutHandle cfg input mac vap) := by
  rw [staTimeoutHandle]
  split
  next => exact Each.change_refl
  next i found =>
    split
    · have cleared : Change cfg vap input i (Sta.zero, [.reset]) := .aging mac event found
      dsimp only
      split
      · intro j
        obtain ⟨result, told, table, past⟩ :=
          staMskRekeyHandle_each cfg input (vap.put i (Sta.zero, [.reset])) j
        obtain ⟨told, differ⟩ | ⟨rfl, rfl⟩ := told_put_zero told
        · exact ⟨result, told.change, table, by rw [past, put_past_other vap _ differ]⟩
        · refine ⟨_, cleared, table, ?_⟩
          rw [past, put_past_self, append_nil]
      · exact Each.change_put cleared
    · exact Each.change_refl

theorem rekeyStation_follows {may : Sta → Bool}
    (only : ∀ sta, may sta = true → sta.status = .authenticated) :
    Each (Change cfg vap input) vap (rekeyStation cfg input mac may vap) := by
  rw [rekeyStation]
  split
  next => exact Each.change_refl
  next i found =>
    split
    next permitted => exact Each.change_put (.rekey _ (only _ permitted))
    next => exact Each.change_refl

theorem notifyGroupnotice_tables (now : UInt32) (vap : Vap) :
    (notifyGroupnotice now vap).table = vap.table ∧ (notifyGroupnotice now vap).past = vap.past := by
  rw [notifyGroupnotice]
  split
  · exact ⟨rfl, rfl⟩
  · exact ⟨rfl, rfl⟩

theorem processMskResponse_follows {i : Slot} {frame : Bytes} (heard : Heard cfg vap input i frame)
    (kind : getPacketSubType frame = SubType.mskResponse.code) :
    Each (Change cfg vap input) vap (processMskResponse cfg input i frame vap) := by
  rw [processMskResponse]
  split
  next => exact Each.change_put (.ignored heard)
  next sta answered =>
    rw [mskAnnouncementRes] at answered
    split at answered
    next valid =>
      cases answered
      have change := Each.change_put (.msk heard kind valid)
      dsimp only
      split
      · have tables := notifyGroupnotice_tables input.now
          { Vap.hear vap i frame (mskAccepted input frame (resetTableItem (vap.table i))) with
            groupNo := (Vap.hear vap i frame
              (mskAccepted input frame (resetTableItem (vap.table i)))).groupNo - 1 }
        exact change.congr tables.1 tables.2
      · exact change
    next => cases answered

theorem wapiProcessFromSta_follows {whole : Bytes} (event : input.event = .fromSta mac whole)
    (enabled : cfg.waiPolicy &&& 0x0C ≠ 0)
    (runs : wapiProcessFromSta cfg input mac (received whole) vap = some after) :
    Each (Change cfg vap input) vap after := by
  rw [wapiProcessFromSta] at runs
  split at runs
  next =>
    cases runs
    exact Each.change_refl
  next i found =>
    have heard : Heard cfg vap input i (received whole) := ⟨mac, whole, event, rfl, found, enabled⟩
    dsimp only at runs
    split at runs
    · cases runs
      exact Each.change_put (.ignored heard)
    split at runs
    next kind =>
      obtain ⟨result, processed, rfl⟩ := map_eq_some_iff.mp runs
      exact Each.change_put (.access heard kind processed)
    split at runs
    next kind =>
      obtain ⟨result, processed, rfl⟩ := map_eq_some_iff.mp runs
      exact Each.change_put (.usk heard kind processed)
    split at runs
    next kind =>
      cases runs
      exact processMskResponse_follows heard kind
    next =>
      cases runs
      exact Each.change_put (.ignored heard)

theorem wapiProcessFromAs_follows {frame : Bytes} (answered : Answered cfg input frame)
    (runs : wapiProcessFromAs cfg input frame vap = some after) :
    Each (Change cfg vap input) vap after := by
  rw [wapiProcessFromAs] at runs
  split at runs
  next =>
    cases runs
    exact Each.change_refl
  next =>
    split at runs
    next => cases runs
    next =>
      cases runs
      exact Each.change_refl
    next i sta rejects =>
      obtain ⟨result, responded, rfl⟩ := map_eq_some_iff.mp runs
      exact Each.change_put (.rejected answered rejects responded)
    next i sta accepts =>
      obtain ⟨result, responded, rfl⟩ := map_eq_some_iff.mp runs
      exact Each.change_put (.server answered accepts responded)

theorem announceTo_status {now : UInt32} {msksa : Msksa} {gnonce : List UInt32} {ok : Bool}
    {sta : Sta} (status : (announceTo cfg now msksa gnonce ok sta).1.status = .authenticated) :
    ok = false := by
  cases ok with
  | false => rfl
  | true =>
    by_cases idle : sta.status = .authenticated <;> simp [announceTo, setTableItem, idle] at status

theorem rekeyHandle_follows :
    Each (Change cfg vap input) vap (wapidRekeyUsk cfg input (wapidRekeyMsk cfg input vap)) := by
  intro j
  obtain ⟨first, told, table, past⟩ := wapidRekeyMsk_each cfg input vap j
  obtain ⟨second, rekeyed, later, history⟩ :=
    wapidRekeyUsk_each cfg input (wapidRekeyMsk cfg input vap) j
  rw [Rekeyed, table] at rekeyed
  rw [past] at history
  obtain rfl | ⟨status, rfl⟩ := rekeyed
  · exact ⟨first, told.change, later, by simpa using history⟩
  · obtain rfl | ⟨-, msksa, gnonce, rfl⟩ := told
    · exact ⟨_, .rekey _ status, later, by simpa using history⟩
    · have failed := announceTo_status status
      rw [failed] at later history status
      refine ⟨_, .announceRekey msksa gnonce (input.sent j 1) failed status, later, ?_⟩
      rw [history, append_assoc]
      rfl

theorem step_follows (runs : step cfg vap input = some after) :
    Each (Change cfg vap input) vap after := by
  rw [step] at runs
  split at runs
  next mt event => exact authInitiate_follows event runs
  next mac event =>
    cases runs
    exact staTimeoutHandle_follows event
  next mac event =>
    cases runs
    apply rekeyStation_follows
    intro sta permitted
    simp only [Bool.and_eq_true, beq_iff_eq] at permitted
    exact permitted.2
  next event =>
    cases runs
    exact (staMskRekeyHandle_each cfg input vap).mono fun _ _ told => told.change
  next mac event =>
    cases runs
    apply rekeyStation_follows
    intro sta permitted
    simpa using permitted
  next mac whole event =>
    split at runs
    next =>
      cases runs
      exact Each.change_refl
    next usable =>
      push Not at usable
      exact wapiProcessFromSta_follows event usable.2 runs
  next whole event =>
    dsimp only at runs
    split at runs
    next =>
      cases runs
      exact Each.change_refl
    next usable =>
      push Not at usable
      exact wapiProcessFromAs_follows ⟨whole, event, rfl, usable.2⟩ runs
  next event =>
    refine (timeoutRetry_each runs).mono ?_
    rintro i result (rfl | ⟨counts, retried⟩)
    · exact .none
    · exact .retry event retried
  next event =>
    cases runs
    exact rekeyHandle_follows

theorem reaches_entry (holds : List Mark → Sta → Prop) {condition : Vap → Input → Prop}
    {now : UInt32} {msk : Vector UInt8 16} (initially : holds [] resetStaInfo)
    (keeps : ∀ vap input i result, condition vap input →
      (∀ j, holds (vap.past j) (vap.table j)) → Change cfg vap input i result →
      holds (vap.past i ++ result.2) result.1)
    (reached : Reaches (step cfg) condition (Vap.init cfg now msk) vap) (i : Slot) :
    holds (vap.past i) (vap.table i) := by
  revert i
  refine @Reaches.invariant _ _ _ _ (fun vap => ∀ i, holds (vap.past i) (vap.table i)) _ _ ?_
    reached ?_
  · intro vap input after met steps ih i
    obtain ⟨result, change, table, past⟩ := step_follows steps i
    rw [table, past]
    exact keeps vap input i result met ih change
  · intro i
    simp only [Vap.init]
    split <;> exact initially

end Steps

def sinceReset (past : List Mark) : List Mark :=
  past.foldl (fun recent mark => if mark = .reset then [] else recent ++ [mark]) []

@[simp] theorem sinceReset_nil : sinceReset [] = [] := rfl

theorem sinceReset_snoc (past : List Mark) (mark : Mark) :
    sinceReset (past ++ [mark]) = if mark = .reset then [] else sinceReset past ++ [mark] := by
  simp [sinceReset]

theorem sinceReset_append (past marks : List Mark) (none : .reset ∉ marks) :
    sinceReset (past ++ marks) = sinceReset past ++ marks := by
  induction marks using List.reverseRecOn with
  | nil => simp
  | append_singleton front last ih =>
    simp only [mem_append, mem_singleton, not_or] at none
    rw [← append_assoc, sinceReset_snoc, if_neg (Ne.symm none.2), ih none.1, append_assoc]

theorem sinceReset_reset (past marks : List Mark) (none : .reset ∉ marks) :
    sinceReset (past ++ .reset :: marks) = marks := by
  have cleared : sinceReset (past ++ [.reset]) = [] := by simp [sinceReset_snoc]
  rw [show past ++ .reset :: marks = (past ++ [.reset]) ++ marks by simp,
    sinceReset_append _ _ none, cleared, nil_append]

/-! ## A small network

One access point with a preshared key, and stations that answer what it sent them last. -/

section Network

def noCertificates : X509 where
  getPublicKey _ := none
  getSubject _ := none
  getIssuer _ := none
  getSerial _ := none
  verify _ _ _ := false
  sign _ _ := none
  genkey _ := none
  dh _ _ := none

def network (waiPolicy : UInt8) : Config where
  crypto := .wapid
  x509 := noCertificates
  asUdpSk := true
  hasCert := false
  usedCert := 1
  certMode := 1
  aeId := ⟨0, []⟩
  asuCert := []
  userCert := []
  caCert := []
  asuPublickey := []
  caPubkey := []
  userPrivatekey := []
  macaddr := #v[0x00, 0x03, 0x7F, 0x00, 0x00, 0x01]
  waiPolicy := waiPolicy
  password := ascii "12345678"
  certificateUpdateCount := 3
  unicastUpdateCount := 3
  multicastUpdateCount := 3
  bkLifetime := 43200
  bkReauthThreshold := 70
  saTimeout := 60
  multicastRekeyStrict := false
  unicastRekeyTimed := false
  multicastRekeyTimed := false
  uskRekeyPeriod := 86400
  mskRekeyPeriod := 86400
  littleEndian := false

theorem network_eq (waiPolicy : UInt8) : network waiPolicy =
    { network waiPolicy with
      crypto := { Crypto.wapid with
        mhashSha256 := Lib.Sha256.quickHash
        hmacSha256 := Lib.Sha256.quickHmac } } := by
  rw [← Lib.Sha256.hash_eq, ← Lib.Sha256.hmac_eq]
  rfl

/-- The element of `WAI_CNTAPPARA_SET` for a preshared key. -/
def stationWie : Bytes :=
  [0x44, 22, 1, 0, 1, 0, 0, 0x14, 0x72, 2, 1, 0, 0, 0x14, 0x72, 1, 0, 0x14, 0x72, 1, 0, 0, 0, 0]

def stationMac (number : UInt8) : Mac := #v[0x00, 0x03, 0x7F, 0x00, 0x01, number]

def challenge (letter : UInt8) : Vector UInt8 32 := Vector.replicate 32 letter

def at1000 (event : Event) : Input where
  event := event
  now := 1000
  nonce _ := challenge 0x61
  seed := []
  msk := Vector.replicate 16 0x67
  sent _ _ := true

def networkStart (waiPolicy : UInt8) : Vap :=
  Vap.init (network waiPolicy) 0 (Vector.replicate 16 0x66)

def associates (number : UInt8) (_ : Vap) : Input :=
  at1000 (.assoc ⟨stationMac number, zeros 16, fixed 256 stationWie⟩)

def uskAnswer (cfg : Config) (bk : Vector UInt8 16) (nonce : Vector UInt8 32) (groupSc : UInt16)
    (request : Bytes) : Bytes :=
  let usk := AsueUsk.derive cfg bk (slice request 30 12) (fixed 32 (slice request 42 32)) nonce
  let body := slice request headLen 30 ++ nonce.toList ++ slice request 42 32 ++ stationWie
  buildFrame .uskNegResponse groupSc (body ++ cfg.mic usk.mak body)

def mskAnswer (cfg : Config) (mak : Vector UInt8 16) (groupSc : UInt16) (frame : Bytes) :
    Bytes :=
  let body := slice frame headLen 15 ++ slice frame 43 16
  buildFrame .mskResponse groupSc (body ++ cfg.mic mak body)

def answersUsk (cfg : Config) (i : Slot) (groupSc : UInt16) (vap : Vap) : Input :=
  let sta := vap.table i
  at1000 (.fromSta sta.mac (uskAnswer cfg sta.bksa.bk (challenge 0x62) groupSc (sta.buf1.getD [])))

def answersMsk (cfg : Config) (i : Slot) (groupSc : UInt16) (vap : Vap) : Input :=
  let sta := vap.table i
  at1000 (.fromSta sta.mac
    (mskAnswer cfg (sta.usksa.usk sta.usksa.dynamicKeyUsed).mck groupSc (sta.buf0.getD [])))

end Network

end AthApps.Wapi
