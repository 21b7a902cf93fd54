import AthApps.Wapi.Change
import Mathlib.Algebra.BigOperators.Fin

/-!
# The group rekey of an access point

A group rekey draws a key, flips its index, announces it to the stations and
installs it when all of them have answered or left.  If the first announcement
cannot be sent the rekey ends at once and the key is not installed; if an
outstanding station leaves by another way than its answer or the retry timer,
the counter keeps its place and the rekey does not end.
-/

set_option autoImplicit false

namespace AthApps.Wapi

open AthApps.Lib Option

variable {cfg : Config} {vap after : Vap} {input : Input}

theorem rekeyLoop_eq (cfg : Config) (input : Input) (slots : List Slot) (vap : Vap) : ∃ table past,
    rekeyLoop cfg input slots vap = { vap with table := table, past := past } := by
  induction slots generalizing vap with
  | nil => exact ⟨vap.table, vap.past, rfl⟩
  | cons i rest ih =>
    rw [rekeyLoop]
    split
    · exact ih (vap.put i _)
    · exact ih vap

theorem wapidRekeyUsk_eq (cfg : Config) (input : Input) (vap : Vap) : ∃ table past,
    wapidRekeyUsk cfg input vap = { vap with table := table, past := past } := by
  rw [wapidRekeyUsk]
  split
  · exact rekeyLoop_eq cfg input (List.finRange 32) vap
  · exact ⟨vap.table, vap.past, rfl⟩

theorem rekeyStation_eq (cfg : Config) (input : Input) (mac : Mac) (may : Sta → Bool) (vap : Vap) :
    ∃ table past,
      rekeyStation cfg input mac may vap = { vap with table := table, past := past } := by
  rw [rekeyStation]
  split
  · exact ⟨vap.table, vap.past, rfl⟩
  · split
    · exact ⟨_, _, rfl⟩
    · exact ⟨vap.table, vap.past, rfl⟩

theorem retryLoop_eq {slots : List Slot} {start later : Vap} {waiting waited : Nat}
    (runs : retryLoop cfg input slots start waiting = some (later, waited)) :
    ∃ table past groupNo,
      later = { start with table := table, past := past, groupNo := groupNo } := by
  induction slots generalizing start waiting with
  | nil =>
    cases runs
    exact ⟨later.table, later.past, later.groupNo, rfl⟩
  | cons i rest ih =>
    rw [retryLoop] at runs
    split at runs
    · cases runs
    · dsimp only at runs
      split at runs
      · obtain ⟨table, past, groupNo, same⟩ := ih runs
        exact ⟨table, past, groupNo, same⟩
      · obtain ⟨table, past, groupNo, same⟩ := ih runs
        exact ⟨table, past, groupNo, same⟩

/-- Outside of a group rekey the current key is installed; before the first one no key
is, if the access point does not use WAI. -/
def Synced (cfg : Config) (vap : Vap) : Prop :=
  vap.rekeying = false →
    vap.installed = some vap.msksa ∨ vap.installed = none ∧ cfg.waiPolicy &&& 0x0C = 0

/-- The state that `msk_rekey_handle` meets, if the step calls it and the nonce is not used up. -/
def groupRekey (cfg : Config) (vap : Vap) (input : Input) : Option Vap :=
  let idle := vap.rekeying = false ∧ cfg.waiPolicy &&& 0x03 ≠ 0 ∧
    overflow (updateGnonce vap.gnonce) = false
  match input.event with
  | .multiRekey => if idle then some vap else none
  | .aging mac =>
    match apGetSta mac vap.table with
    | none => none
    | some i =>
      if idle ∧ mayAge (vap.table i) ∧ cfg.multicastRekeyStrict then
        some (vap.put i (Sta.zero, [.reset]))
      else none
  | .rekeyHandle =>
    if idle ∧ cfg.multicastRekeyTimed ∧ vap.mskRekeyTimer + cfg.mskRekeyPeriod ≤ input.now then
      some vap
    else none
  | _ => none

@[grind =] def firstSent (input : Input) (table : Slot → Sta) : List Slot → Bool
  | [] => true
  | i :: rest =>
    if announced (table i).status then input.sent i 0 else firstSent input table rest

def FirstSent (cfg : Config) (vap : Vap) (input : Input) : Prop :=
  ∀ start ∈ groupRekey cfg vap input, firstSent input start.table (List.finRange 32) = true

instance : Decidable (FirstSent cfg vap input) :=
  inferInstanceAs (Decidable (∀ start ∈ groupRekey cfg vap input, _))

theorem announceLoop_frame (cfg : Config) (input : Input) (slots : List Slot) (vap : Vap) :
    (announceLoop cfg input slots vap).rekeying = vap.rekeying ∧
      (announceLoop cfg input slots vap).groupStatus = vap.groupStatus ∧
      (announceLoop cfg input slots vap).gnonce = vap.gnonce := by
  induction slots generalizing vap with
  | nil =>
    rw [announceLoop]
    split <;> exact ⟨rfl, rfl, rfl⟩
  | cons i rest ih =>
    rw [announceLoop]
    split
    · dsimp only
      split
      · exact ih _
      · exact ⟨rfl, rfl, rfl⟩
    · exact ih vap

theorem announceLoop_positive {slots : List Slot} {vap : Vap} (positive : 0 < vap.groupNo) :
    0 < (announceLoop cfg input slots vap).groupNo := by
  induction slots generalizing vap with
  | nil =>
    rw [announceLoop]
    split <;> exact positive
  | cons i rest ih =>
    rw [announceLoop]
    split
    · dsimp only
      split
      · apply ih
        show 0 < vap.groupNo + 1
        omega
      · exact positive
    · exact ih positive

theorem announceLoop_installs {slots : List Slot} {vap : Vap} (status : vap.groupStatus = true)
    (none : vap.groupNo = 0) (sent : firstSent input vap.table slots = true) :
    0 < (announceLoop cfg input slots vap).groupNo ∨ (announceLoop cfg input slots vap).installed =
        some (announceLoop cfg input slots vap).msksa := by
  induction slots with
  | nil =>
    rw [announceLoop, if_pos ⟨status, none⟩]
    exact Or.inr rfl
  | cons i rest ih =>
    rw [firstSent] at sent
    rw [announceLoop]
    split
    next told =>
      rw [if_pos told] at sent
      dsimp only
      rw [if_pos sent]
      apply Or.inl
      apply announceLoop_positive
      show 0 < vap.groupNo + 1
      omega
    next told =>
      rw [if_neg told] at sent
      exact ih sent

theorem mskRekeyHandle_synced (synced : Synced cfg vap)
    (sent : overflow (updateGnonce vap.gnonce) = false →
      firstSent input vap.table (List.finRange 32) = true) :
    Synced cfg (mskRekeyHandle cfg input vap) := by
  rw [mskRekeyHandle]
  dsimp only
  split
  · exact synced
  next room =>
    have installs := @announceLoop_installs cfg input (List.finRange 32)
      { vap with
        gnonce := updateGnonce vap.gnonce
        msksa := { mskid := other vap.msksa.mskid, msk := input.msk }
        groupStatus := true
        groupNo := 0 } rfl rfl (sent (by simpa using room))
    split
    · rintro ⟨⟩
    next nobody =>
      rcases installs with told | installed
      · exact absurd told nobody
      · exact fun _ => Or.inl installed

theorem staMskRekeyHandle_synced (synced : Synced cfg vap)
    (sent : vap.rekeying = false → cfg.waiPolicy &&& 0x03 ≠ 0 →
      overflow (updateGnonce vap.gnonce) = false →
      firstSent input vap.table (List.finRange 32) = true) :
    Synced cfg (staMskRekeyHandle cfg input vap) := by
  rw [staMskRekeyHandle]
  split
  · exact synced
  next idle =>
    split
    next enabled => exact mskRekeyHandle_synced synced (sent (by simpa using idle) enabled)
    next => exact synced

theorem notifyGroupnotice_synced (now : UInt32) (synced : Synced cfg vap) :
    Synced cfg (notifyGroupnotice now vap) := by
  rw [notifyGroupnotice]
  split
  · exact synced
  · exact fun _ => Or.inl rfl

theorem processMskResponse_synced (i : Slot) (frame : Bytes) (synced : Synced cfg vap) :
    Synced cfg (processMskResponse cfg input i frame vap) := by
  rw [processMskResponse]
  split
  · exact synced
  · dsimp only
    split
    · exact notifyGroupnotice_synced input.now synced
    · exact synced

theorem timeoutRetry_synced (synced : Synced cfg vap)
    (runs : timeoutRetry cfg input vap = some after) : Synced cfg after := by
  rw [timeoutRetry, map_eq_some_iff] at runs
  obtain ⟨⟨later, waited⟩, loop, final⟩ := runs
  obtain ⟨table, past, groupNo, rfl⟩ := retryLoop_eq loop
  dsimp only at final
  split at final
  · subst final
    exact fun _ => Or.inl rfl
  · subst final
    exact synced

theorem wapiProcessFromSta_synced {mac : Mac} {frame : Bytes} (synced : Synced cfg vap)
    (runs : wapiProcessFromSta cfg input mac frame vap = some after) : Synced cfg after := by
  rw [wapiProcessFromSta] at runs
  split at runs
  · cases runs
    exact synced
  next i found =>
    dsimp only at runs
    split at runs
    · cases runs
      exact synced
    split at runs
    · obtain ⟨result, processed, rfl⟩ := map_eq_some_iff.mp runs
      exact synced
    split at runs
    · obtain ⟨result, processed, rfl⟩ := map_eq_some_iff.mp runs
      exact synced
    split at runs
    · cases runs
      exact processMskResponse_synced i frame synced
    · cases runs
      exact synced

theorem wapiProcessFromAs_synced {frame : Bytes} (synced : Synced cfg vap)
    (runs : wapiProcessFromAs cfg input frame vap = some after) : Synced cfg after := by
  rw [wapiProcessFromAs] at runs
  split at runs
  · cases runs
    exact synced
  · split at runs
    · cases runs
    · cases runs
      exact synced
    · obtain ⟨result, responded, rfl⟩ := map_eq_some_iff.mp runs
      exact synced
    · obtain ⟨result, responded, rfl⟩ := map_eq_some_iff.mp runs
      exact synced

theorem staTimeoutHandle_synced {mac : Mac} (event : input.event = .aging mac)
    (sent : FirstSent cfg vap input) (synced : Synced cfg vap) :
    Synced cfg (staTimeoutHandle cfg input mac vap) := by
  rw [staTimeoutHandle]
  split
  · exact synced
  next i found =>
    split
    next aged =>
      dsimp only
      split
      next strict =>
        apply staMskRekeyHandle_synced
        · exact synced
        · intro idle enabled room
          apply sent (vap.put i (Sta.zero, [.reset]))
          have start : vap.rekeying = false ∧ cfg.waiPolicy &&& 0x03 ≠ 0 ∧
              overflow (updateGnonce vap.gnonce) = false := ⟨idle, enabled, room⟩
          simp [groupRekey, event, found, start, aged, strict]
      next => exact synced
    next => exact synced

theorem wapidRekeyMsk_synced (event : input.event = .rekeyHandle)
    (sent : FirstSent cfg vap input) (synced : Synced cfg vap) :
    Synced cfg (wapidRekeyMsk cfg input vap) := by
  rw [wapidRekeyMsk]
  split
  next due =>
    split
    · exact synced
    next idle =>
      apply mskRekeyHandle_synced synced
      intro room
      apply sent vap
      have start : vap.rekeying = false ∧ cfg.waiPolicy &&& 0x03 ≠ 0 ∧
          overflow (updateGnonce vap.gnonce) = false := ⟨by simpa using idle, due.2.1, room⟩
      simp [groupRekey, event, start, due.1, due.2.2]
  next => exact synced

theorem step_synced (sent : FirstSent cfg vap input) (runs : step cfg vap input = some after)
    (synced : Synced cfg vap) : Synced cfg after := by
  rw [step] at runs
  split at runs
  next mt event =>
    rw [authInitiate] at runs
    split at runs
    · cases runs
      exact synced
    · split at runs
      · cases runs
      · obtain ⟨result, initiated, rfl⟩ := map_eq_some_iff.mp runs
        exact synced
  next mac event =>
    cases runs
    exact staTimeoutHandle_synced event sent synced
  next mac event =>
    cases runs
    obtain ⟨table, past, rekeyed⟩ := rekeyStation_eq cfg input mac
      (fun sta => !sta.rekeying && sta.authMode == 0 && sta.status == .authenticated) vap
    rw [staUskRekeyHandle, rekeyed]
    exact synced
  next event =>
    cases runs
    apply staMskRekeyHandle_synced synced
    intro idle enabled room
    apply sent vap
    have start : vap.rekeying = false ∧ cfg.waiPolicy &&& 0x03 ≠ 0 ∧
        overflow (updateGnonce vap.gnonce) = false := ⟨idle, enabled, room⟩
    simp [groupRekey, event, start]
  next mac event =>
    cases runs
    obtain ⟨table, past, rekeyed⟩ := rekeyStation_eq cfg input mac
      (fun sta => sta.status == .authenticated) vap
    rw [wapidCtrlRekey, rekeyed]
    exact synced
  next mac whole event =>
    split at runs
    · cases runs
      exact synced
    · exact wapiProcessFromSta_synced synced runs
  next whole event =>
    dsimp only at runs
    split at runs
    · cases runs
      exact synced
    · exact wapiProcessFromAs_synced synced runs
  next event => exact timeoutRetry_synced synced runs
  next event =>
    cases runs
    obtain ⟨table, past, rekeyed⟩ := wapidRekeyUsk_eq cfg input (wapidRekeyMsk cfg input vap)
    rw [rekeyed]
    exact wapidRekeyMsk_synced event sent synced

/-- As long as the first announcement of every group rekey is sent, the current group key
is installed whenever no rekey is under way. -/
theorem group_key_installed {now : UInt32} {msk : Vector UInt8 16}
    (reached : Reaches (step cfg) (FirstSent cfg) (Vap.init cfg now msk) vap)
    (idle : vap.rekeying = false) :
    vap.installed = some vap.msksa ∨ vap.installed = none ∧ cfg.waiPolicy &&& 0x0C = 0 := by
  have synced : Synced cfg vap := by
    apply reached.invariant
    · intro vap input after sent runs synced
      exact step_synced sent runs synced
    · intro _
      rw [Vap.init]
      split
      next disabled => exact Or.inr ⟨rfl, disabled⟩
      next => exact Or.inl rfl
  exact synced idle

/-- The driver asks for a group rekey; whether frames can be sent. -/
def groupRekeys (ok : Bool) (_ : Vap) : Input :=
  { at1000 .multiRekey with sent := fun _ _ => ok }

def groupKeyIds (vap : Vap) : Bool × Fin 2 × Option (Fin 2) :=
  (vap.rekeying, vap.msksa.mskid, vap.installed.map Msksa.mskid)

theorem group_key_installed_rekey : ∃ vap,
    Reaches (step (network 0x07)) (FirstSent (network 0x07)) (networkStart 0x07) vap ∧
      vap.msksa.mskid = 1 ∧ vap.installed = some vap.msksa := by
  have ends : (follows (step (network 0x07)) (FirstSent (network 0x07)) (networkStart 0x07)
      [associates 1, answersUsk (network 0x07) 31 0, answersMsk (network 0x07) 31 0,
        groupRekeys true, answersMsk (network 0x07) 31 0]).map groupKeyIds =
          some (false, 1, some 1) := by
    rw [networkStart, network_eq]
    decide +kernel
  obtain ⟨vap, ends, ids⟩ := map_eq_some_iff.mp ends
  simp only [groupKeyIds, Prod.mk.injEq] at ids
  have reached := reaches_of_follows ends
  refine ⟨vap, reached, ids.2.1, ?_⟩
  rcases group_key_installed reached ids.1 with installed | ⟨-, disabled⟩
  · exact installed
  · exact absurd disabled (by decide)

/-- The announcement to the only station is not sent: the new key is current, the old one
stays installed, and no rekey is under way. -/
theorem group_key_not_installed : ∃ vap,
    Reaches (step (network 0x07)) (fun _ _ => True) (networkStart 0x07) vap ∧
      vap.rekeying = false ∧ ∃ key, vap.installed = some key ∧ key.mskid ≠ vap.msksa.mskid := by
  have ends : (follows (step (network 0x07)) (fun _ _ => True) (networkStart 0x07)
      [associates 1, answersUsk (network 0x07) 31 0, answersMsk (network 0x07) 31 0,
        groupRekeys false]).map groupKeyIds = some (false, 1, some 0) := by
    rw [networkStart, network_eq]
    decide +kernel
  obtain ⟨vap, ends, ids⟩ := map_eq_some_iff.mp ends
  simp only [groupKeyIds, Prod.mk.injEq] at ids
  obtain ⟨key, installed, index⟩ := map_eq_some_iff.mp ids.2.2
  refine ⟨vap, reaches_of_follows ends, ids.1, key, installed, ?_⟩
  rw [index, ids.2.1]
  decide

end AthApps.Wapi
