import AthApps.Wapi.Change

/-!
# One entry for each station

No two entries in use carry the address of one station, `ap_get_sta` returns
the entry of a station, and an association changes no entry of another one.
Runs end where the program has no meaning.
-/

set_option autoImplicit false

namespace AthApps.Wapi

open AthApps.Lib Option
open List hiding Vector

section Search

variable {table : Slot → Sta} {mac : Mac} {i : Slot}

theorem apGetSta_found (found : apGetSta mac table = some i) :
    (table i).status ≠ .noAuth ∧ (table i).mac = mac := by
  rw [apGetSta] at found
  simpa using find?_some found

theorem apGetStaPosLoop_some {slots : List Slot} {k : Option Slot}
    (found : apGetStaPosLoop mac table slots k = some i) :
    ((table i).status ≠ .noAuth ∧ (table i).mac = mac) ∨ ((table i).status = .noAuth ∨ k = some i) ∧
        ∀ j ∈ slots, (table j).status = .noAuth ∨ (table j).mac ≠ mac := by
  induction slots generalizing k with
  | nil => exact Or.inr ⟨Or.inr found, by simp⟩
  | cons j rest ih =>
    rw [apGetStaPosLoop] at found
    split at found
    next free =>
      rcases ih found with own | ⟨idle, absent⟩
      · exact Or.inl own
      · refine Or.inr ⟨?_, forall_mem_cons.mpr ⟨Or.inl free, absent⟩⟩
        rcases idle with idle | same
        · exact Or.inl idle
        · cases same
          exact Or.inl free
    next used =>
      split at found
      next same =>
        cases found
        exact Or.inl ⟨used, same⟩
      next differ =>
        rcases ih found with own | ⟨idle, absent⟩
        · exact Or.inl own
        · exact Or.inr ⟨idle, forall_mem_cons.mpr ⟨Or.inr differ, absent⟩⟩

/-- `ap_get_sta_pos` prefers the entry of the station; else the station has none. -/
theorem apGetStaPos_some (found : apGetStaPos mac table = some i) :
    ((table i).status ≠ .noAuth ∧ (table i).mac = mac) ∨
      (table i).status = .noAuth ∧ ∀ j, (table j).status = .noAuth ∨ (table j).mac ≠ mac := by
  rcases apGetStaPosLoop_some found with own | ⟨idle, absent⟩
  · exact Or.inl own
  · refine Or.inr ⟨?_, fun j => absent j (mem_finRange j)⟩
    rcases idle with idle | never
    · exact idle
    · cases never

end Search

section Addresses

variable {cfg : Config} {now : UInt32} {sta : Sta}

theorem apActivateSta_mac {nonce : Vector UInt8 32} {ok : Bool} {result : Sta × List Mark}
    (activated : apActivateSta cfg now nonce ok sta = some result) : result.1.mac = sta.mac := by
  obtain rfl | ⟨flag, aeAuthFlag, asuId, rfl⟩ := apActivateSta_cases activated
  · rfl
  · cases ok <;> simp [sendActivation]

theorem uskNegotiationReq_mac (nonce : Vector UInt8 32) (ok : Bool) :
    (uskNegotiationReq cfg now nonce ok sta).1.mac = sta.mac := by
  cases ok <;> simp [uskNegotiationReq]

variable (msksa : Msksa) (gnonce : List UInt32) (ok : Bool)

theorem uskRekeyHandle_mac : (uskRekeyHandle cfg now ok sta).1.mac = sta.mac := by
  cases ok <;> simp [uskRekeyHandle]

theorem announceTo_mac : (announceTo cfg now msksa gnonce ok sta).1.mac = sta.mac := by
  cases ok <;> simp [announceTo]

theorem uskNegotiationConfirmation_mac :
    (uskNegotiationConfirmation cfg now ok sta).1.mac = sta.mac := by
  cases ok <;> simp [uskNegotiationConfirmation]

theorem mskAnnouncementTx_mac :
    (mskAnnouncementTx cfg now msksa gnonce ok sta).1.mac = sta.mac := by
  cases ok <;> simp [mskAnnouncementTx]

variable {input : Input} {i : Slot} {frame : Bytes}

variable {result : Sta × List Mark}

theorem initiateEntry_mac {mt : AssoMt}
    (initiated : initiateEntry cfg input i mt = some result) : result.1.mac = mt.mac := by
  rw [initiateEntry, map_eq_some_iff] at initiated
  obtain ⟨started, begun, rfl⟩ := initiated
  dsimp only at begun ⊢
  split at begun
  · exact apActivateSta_mac begun
  · cases begun
    exact uskNegotiationReq_mac _ _
  · cases begun
    rfl

theorem processAccessRequest_mac
    (processed : processAccessRequest cfg input i frame sta = some result) :
    result.1.mac = sta.mac := by
  obtain rfl | ⟨-, request, rfl⟩ := processAccessRequest_cases processed
  · rfl
  · simp only [forwardRequest]
    split
    · split <;> simp [resetTableItem, requestTaken]
    · simp [resetTableItem, requestTaken]

theorem confirmKey_mac : (confirmKey cfg input i sta).1.mac = sta.mac :=
  uskNegotiationConfirmation_mac _

theorem uskAccepted_mac : (uskAccepted cfg input i msksa gnonce sta).1.mac = sta.mac := by
  unfold uskAccepted
  split
  · exact confirmKey_mac
  · exact confirmKey_mac
  · exact confirmKey_mac
  · split
    · exact (mskAnnouncementTx_mac _ _ _).trans (uskNegotiationConfirmation_mac _)
    · rfl
  · rfl

theorem mskAccepted_mac : (mskAccepted input frame sta).1.mac = sta.mac := by
  unfold mskAccepted
  split <;> rfl

theorem processUskResponse_mac {msksa : Msksa} {gnonce : List UInt32}
    (processed : processUskResponse cfg input i msksa gnonce frame sta = some result) :
    result.1.status = .noAuth ∨ result.1.mac = sta.mac := by
  obtain ⟨later, outcome, rfl⟩ | ⟨later, outcome, rfl⟩ | ⟨later, outcome, rfl⟩ :=
    processUskResponse_cases processed
  · cases outcome with
    | refused => exact Or.inr rfl
    | mismatch => exact Or.inr rfl
  · cases outcome
    exact Or.inl rfl
  · cases outcome
    exact Or.inr (uskAccepted_mac msksa gnonce)

theorem responseTaken_mac (seed : Bytes) : (responseTaken cfg now seed sta).mac = sta.mac := by
  simp only [responseTaken, resetTableItem]
  cases derived : apCertauthbkDerivation cfg seed { sta with authResult := 0 } with
  | none => rfl
  | some later =>
    simp only [apCertauthbkDerivation, bind_eq_bind, bind_eq_some_iff] at derived
    obtain ⟨certObj, -, ⟨publicKey, privateKey⟩, -, shared, -, same⟩ := derived
    cases same
    rfl

theorem serverAccepted_mac
    (responded : serverAccepted cfg input i frame sta = some result) : result.1.mac = sta.mac := by
  obtain ⟨first, sent, rfl⟩ := map_eq_some_iff.mp responded
  refine (@uskNegotiationReq_mac _ _ first.1 _ _).trans ?_
  obtain rfl | ⟨message, rfl⟩ := accessAuthRes_cases sent
  · rfl
  · simp

theorem retryEntry_mac {counts : Bool}
    (retried : retryEntry cfg input i sta = some (result, counts)) :
    result.1.status = .noAuth ∨ sta.status ≠ .noAuth ∧ result.1.mac = sta.mac := by
  cases retryEntry_outcome retried with
  | same =>
    by_cases idle : sta.status = .noAuth
    · exact Or.inl idle
    · exact Or.inr ⟨idle, rfl⟩
  | update status activated =>
    have same := apActivateSta_mac activated
    exact Or.inr ⟨by simp [status], same⟩
  | removed => exact Or.inl rfl
  | resent active => exact Or.inr ⟨active, rfl⟩

end Addresses

variable {cfg : Config} {vap : Vap} {input : Input}

/-- An entry in use after a step was in use before under the same address, or a station
associated. -/
theorem Change.mac {i : Slot} {result : Sta × List Mark} (change : Change cfg vap input i result) :
    result.1.status = .noAuth ∨
      ((vap.table i).status ≠ .noAuth ∧ result.1.mac = (vap.table i).mac) ∨
      ∃ mt, input.event = .assoc mt ∧ apGetStaPos mt.mac vap.table = some i ∧
        result.1.mac = mt.mac := by
  have heardActive {frame : Bytes} (heard : Heard cfg vap input i frame) :
      (vap.table i).status ≠ .noAuth := by
    obtain ⟨mac, whole, -, -, found, -⟩ := heard
    exact (apGetSta_found found).1
  cases change with
  | none =>
    by_cases idle : (vap.table i).status = .noAuth
    · exact Or.inl idle
    · exact Or.inr (Or.inl ⟨idle, rfl⟩)
  | assoc mt event position initiated =>
    exact Or.inr (Or.inr ⟨mt, event, position, initiateEntry_mac initiated⟩)
  | aging => exact Or.inl rfl
  | rekey ok status => exact Or.inr (Or.inl ⟨by simp [status], uskRekeyHandle_mac ok⟩)
  | announce msksa gnonce told =>
    refine Or.inr (Or.inl ⟨?_, announceTo_mac msksa gnonce _⟩)
    intro idle
    simp [announced, idle] at told
  | announceRekey msksa gnonce ok failed status =>
    refine Or.inr (Or.inl ⟨by simp [status], ?_⟩)
    exact (uskRekeyHandle_mac ok).trans (announceTo_mac msksa gnonce false)
  | ignored heard => exact Or.inr (Or.inl ⟨heardActive heard, rfl⟩)
  | access heard kind processed =>
    have same := processAccessRequest_mac processed
    exact Or.inr (Or.inl ⟨heardActive heard, same⟩)
  | usk heard kind processed =>
    rcases processUskResponse_mac processed with cleared | same
    · exact Or.inl cleared
    · exact Or.inr (Or.inl ⟨heardActive heard, same⟩)
  | msk heard kind valid => exact Or.inr (Or.inl ⟨heardActive heard, mskAccepted_mac⟩)
  | rejected => exact Or.inl rfl
  | server answered accepts responded =>
    obtain ⟨response, -, found, -, -, rfl⟩ := certificateAuthRes_accepted.mp accepts
    refine Or.inr (Or.inl ⟨(apGetSta_found found).1, ?_⟩)
    exact (serverAccepted_mac responded).trans (responseTaken_mac input.seed)
  | retry event retried =>
    rcases retryEntry_mac retried with cleared | same
    · exact Or.inl cleared
    · exact Or.inr (Or.inl same)

def UniqueMac (table : Slot → Sta) : Prop :=
  ∀ i j, (table i).status ≠ .noAuth → (table j).status ≠ .noAuth →
    (table i).mac = (table j).mac → i = j

/-- Two entries that are in use after a step do not share an address: a station that
associates takes its own entry if it has one. -/
theorem UniqueMac.step {after : Vap} (unique : UniqueMac vap.table)
    (steps : step cfg vap input = some after) : UniqueMac after.table := by
  have associated {i j : Slot} {mt : AssoMt} (position : apGetStaPos mt.mac vap.table = some i)
      (active : (vap.table j).status ≠ .noAuth) (same : (vap.table j).mac = mt.mac) : i = j := by
    rcases apGetStaPos_some position with ⟨used, own⟩ | ⟨-, absent⟩
    · exact unique i j used active (own.trans same.symm)
    · rcases absent j with idle | differ
      · exact absurd idle active
      · exact absurd same differ
  intro i j activeI activeJ same
  obtain ⟨first, changeI, tableI, -⟩ := step_follows steps i
  obtain ⟨second, changeJ, tableJ, -⟩ := step_follows steps j
  rw [tableI] at activeI same
  rw [tableJ] at activeJ same
  rcases changeI.mac with idle | ⟨usedI, macI⟩ | ⟨mt, event, position, macI⟩
  · exact absurd idle activeI
  · rcases changeJ.mac with idle | ⟨usedJ, macJ⟩ | ⟨mt, event, position, macJ⟩
    · exact absurd idle activeJ
    · exact unique i j usedI usedJ (by rw [← macI, ← macJ, same])
    · exact (associated position usedI (by rw [← macI, same, macJ])).symm
  · rcases changeJ.mac with idle | ⟨usedJ, macJ⟩ | ⟨other, again, taken, macJ⟩
    · exact absurd idle activeJ
    · exact associated position usedJ (by rw [← macJ, ← same, macI])
    · rw [event] at again
      cases again
      rw [position] at taken
      exact some.inj taken

theorem UniqueMac.apGetSta {table : Slot → Sta} (unique : UniqueMac table) {i : Slot}
    (active : (table i).status ≠ .noAuth) : apGetSta (table i).mac table = some i := by
  cases found : Wapi.apGetSta (table i).mac table with
  | none =>
    rw [Wapi.apGetSta, find?_eq_none] at found
    exact absurd (by simpa using found i (mem_finRange i)) active
  | some j =>
    obtain ⟨used, same⟩ := apGetSta_found found
    rw [unique j i used active same]

/-- In every reachable state no two entries in use have one address, `ap_get_sta` finds
the entry of every station, and an association changes no entry but the one of the
station or a free one. -/
theorem station_entry_unique {now : UInt32} {msk : Vector UInt8 16}
    (reached : Reaches (step cfg) (fun _ _ => True) (Vap.init cfg now msk) vap) :
    UniqueMac vap.table ∧
      (∀ i, (vap.table i).status ≠ .noAuth → apGetSta (vap.table i).mac vap.table = some i) ∧
      ∀ (input : Input) (mt : AssoMt) (after : Vap), input.event = .assoc mt →
        step cfg vap input = some after → ∀ j, after.table j ≠ vap.table j →
          (vap.table j).status = .noAuth ∨ (vap.table j).mac = mt.mac := by
  have unique : UniqueMac vap.table := by
    refine @Reaches.invariant _ _ _ _ (fun vap => UniqueMac vap.table) _ _ ?_ reached ?_
    · intro vap input after _ steps unique
      exact unique.step steps
    · intro i j active
      simp only [Vap.init] at active
      split at active <;> exact absurd rfl active
  refine ⟨unique, fun i active => unique.apGetSta active, ?_⟩
  intro input mt after event steps j changed
  rw [step, event] at steps
  dsimp only [authInitiate] at steps
  split at steps
  next =>
    cases steps
    exact absurd rfl changed
  next i position =>
    split at steps
    · cases steps
    · obtain ⟨result, -, rfl⟩ := map_eq_some_iff.mp steps
      have here : j = i := by
        by_contra differ
        exact changed (put_table_other vap result differ)
      rw [here]
      rcases apGetStaPos_some position with ⟨-, own⟩ | ⟨idle, -⟩
      · exact Or.inr own
      · exact Or.inl idle

/-- Two stations associate, and the first of them once more. -/
theorem station_entry_unique_two : ∃ vap,
    Reaches (step (network 0x07)) (fun _ _ => True) (networkStart 0x07) vap ∧
      (vap.table 31).status = .waitingSession ∧ (vap.table 30).status = .waitingSession ∧
      UniqueMac vap.table := by
  have ends : (follows (step (network 0x07)) (fun _ _ => True) (networkStart 0x07)
      [associates 1, associates 2, associates 1]).map
        (fun vap => ((vap.table 31).status, (vap.table 30).status)) =
      some (.waitingSession, .waitingSession) := by
    decide
  obtain ⟨vap, ends, statuses⟩ := map_eq_some_iff.mp ends
  have reached := reaches_of_follows ends
  exact ⟨vap, reached, congrArg Prod.fst statuses, congrArg Prod.snd statuses,
    (station_entry_unique reached).1⟩

end AthApps.Wapi
