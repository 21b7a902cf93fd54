import AthApps.Wapi.Change

/-!
# Responses that are turned down

`usk_negotiation_res` can check the authenticator of a response only with keys
that it derives from the response.  The derivation stores them in the entry, with
the challenge of the station and the challenge of the next negotiation, and
nothing is put back when the authenticator is wrong.
-/

set_option autoImplicit false

namespace AthApps.Wapi

open AthApps.Lib

section Traces

variable {cfg : Config} {sta : Sta} {frame : Bytes} {res : SessionKeyNegResponse}
  {uskid : Fin 2}

/-- A response that is turned down leaves the entry as it was, and so every later response
fares as it would have without it. -/
def LeavesNoTrace (cfg : Config) (sta : Sta) (frame : Bytes) : Prop :=
  uskNegotiationRes cfg sta frame ≠ .undefined ∧
    ∀ after, uskNegotiationRes cfg sta frame = .refused after →
      after = sta ∧ ∀ later, uskNegotiationRes cfg after later = uskNegotiationRes cfg sta later

def Authentic (cfg : Config) (sta : Sta) (frame : Bytes) (res : SessionKeyNegResponse) :
    Prop :=
  let master := cfg.masterKey sta.bksa.bk res.addid sta.aeNonce res.asueChallenge
  cfg.mic (Usk.ofMaster master true).mck (authenticated frame) = res.mic

/-- Everything that is derived from the response is in the entry already. -/
structure Derived (cfg : Config) (sta : Sta) (res : SessionKeyNegResponse) (uskid : Fin 2) :
    Prop where
  challenge : sta.asueNonce = res.asueChallenge
  keys : sta.usksa.usk uskid =
    Usk.ofMaster (cfg.masterKey sta.bksa.bk res.addid sta.aeNonce res.asueChallenge)
      (sta.usksa.usk uskid).validFlag
  next : sta.aeNonce =
    cfg.nextNonce (cfg.masterKey sta.bksa.bk res.addid sta.aeNonce res.asueChallenge)

/-- The response never gets to the derivation, or nothing that is derived is lost. -/
inductive Harmless (cfg : Config) (sta : Sta) (frame : Bytes) : Prop
  | status (waits : acceptsUskResponse sta.status = false)
  | malformed (unpacked : unpackUcastkeyNegResponse frame = .error .packError)
  | valid {res : SessionKeyNegResponse} {uskid : Fin 2}
      (unpacked : unpackUcastkeyNegResponse frame = .ok res) (index : res.uskid.toNat = uskid.val)
      (update : res.flag &&& 0x10 ≠ 0) (used : (sta.usksa.usk uskid).validFlag = true)
  | challenge {res : SessionKeyNegResponse}
      (unpacked : unpackUcastkeyNegResponse frame = .ok res)
      (index : res.uskid.toNat < 2 ∨ res.flag &&& 0x10 = 0) (other : res.aeChallenge ≠ sta.aeNonce)
  | authentic {res : SessionKeyNegResponse}
      (unpacked : unpackUcastkeyNegResponse frame = .ok res) (index : res.uskid.toNat < 2)
      (mic : Authentic cfg sta frame res)
  | derived {res : SessionKeyNegResponse} {uskid : Fin 2}
      (unpacked : unpackUcastkeyNegResponse frame = .ok res) (index : res.uskid.toNat = uskid.val)
      (same : Derived cfg sta res uskid)

theorem uskDerived_mck : ((uskDerived cfg sta res uskid).usksa.usk uskid).mck =
      (Usk.ofMaster (cfg.masterKey sta.bksa.bk res.addid sta.aeNonce res.asueChallenge) true).mck := by
  simp only [uskDerived, aeUskDerivation, Function.update_self]
  rfl

theorem uskDerived_eq_iff : uskDerived cfg sta res uskid = sta ↔ Derived cfg sta res uskid := by
  constructor
  · intro same
    refine ⟨?_, ?_, ?_⟩
    · exact (congrArg Sta.asueNonce same).symm
    · have slot := congrArg (fun sta : Sta => sta.usksa.usk uskid) same
      simp only [uskDerived, aeUskDerivation, Function.update_self] at slot
      exact slot.symm
    · exact (congrArg Sta.aeNonce same).symm
  · rintro ⟨challenge, keys, next⟩
    simp only [uskDerived, aeUskDerivation]
    rw [← keys, ← next, Function.update_eq_self, ← challenge]

theorem leavesNoTrace_of_refused (refused : uskNegotiationRes cfg sta frame = .refused sta) :
    LeavesNoTrace cfg sta frame := by
  rw [LeavesNoTrace, refused]
  refine ⟨UskResult.noConfusion, ?_⟩
  intro after same
  rw [UskResult.refused.inj same]
  exact ⟨rfl, fun _ => rfl⟩

instance : Decidable (Authentic cfg sta frame res) :=
  inferInstanceAs (Decidable (cfg.mic _ _ = res.mic))

/-- Behind the tests the authenticator decides, and the keys are stored in any case. -/
theorem uskNegotiationRes_response (response : UskResponse sta frame res uskid) :
    uskNegotiationRes cfg sta frame =
      if ¬Authentic cfg sta frame res then .refused (uskDerived cfg sta res uskid)
      else if res.flag &&& 0x10 = 0 ∧ res.wieAsue ≠ sta.wie.toList.take res.wieAsue.length then
        .disauthenticated (uskReset res)
      else .accepted (uskTaken cfg sta res uskid) := by
  obtain ⟨status, unpacked, index, invalid, challenge⟩ := response
  have inside : res.uskid.toNat < 2 := by omega
  have same : (⟨res.uskid.toNat, inside⟩ : Fin 2) = uskid := Fin.ext index
  have usable : ¬(res.flag &&& 0x10 ≠ 0 ∧ (sta.usksa.usk uskid).validFlag = true) := by
    rintro ⟨update, used⟩
    exact absurd (invalid update) (by simp [used])
  unfold uskNegotiationRes
  rw [if_neg (by simp [status]), unpacked]
  dsimp only
  rw [dif_pos inside, same, if_neg usable, if_neg (by simp [challenge]), uskDerived_mck]
  rfl

/-- A response that passes the tests before the derivation leaves no trace exactly if its
authenticator is right or the derivation has been made before. -/
theorem UskResponse.leavesNoTrace_iff (response : UskResponse sta frame res uskid) :
    LeavesNoTrace cfg sta frame ↔ Authentic cfg sta frame res ∨ Derived cfg sta res uskid := by
  by_cases mic : Authentic cfg sta frame res
  · refine iff_of_true ?_ (Or.inl mic)
    rw [LeavesNoTrace, uskNegotiationRes_response response, if_neg (not_not.mpr mic)]
    split
    · exact ⟨UskResult.noConfusion, fun after refused => UskResult.noConfusion refused⟩
    · exact ⟨UskResult.noConfusion, fun after refused => UskResult.noConfusion refused⟩
  · have refused := @uskNegotiationRes_response cfg _ _ _ _ response
    rw [if_pos mic] at refused
    rw [or_iff_right mic, ← uskDerived_eq_iff]
    constructor
    · intro traceless
      exact (traceless.2 _ refused).1
    · intro same
      rw [same] at refused
      exact leavesNoTrace_of_refused refused

theorem uskNegotiationRes_early (early : acceptsUskResponse sta.status = false ∨
    unpackUcastkeyNegResponse frame = .error .packError) :
    uskNegotiationRes cfg sta frame = .refused sta := by
  unfold uskNegotiationRes
  split
  · rfl
  next waits => rw [early.resolve_left (by simpa using waits)]

theorem uskNegotiationRes_unpacked (status : acceptsUskResponse sta.status = true)
    (unpacked : unpackUcastkeyNegResponse frame = .ok res) :
    (∃ uskid, UskResponse sta frame res uskid) ∨
      uskNegotiationRes cfg sta frame = .refused sta ∧ Harmless cfg sta frame ∨
      uskNegotiationRes cfg sta frame = .undefined ∧ 2 ≤ res.uskid.toNat ∧
        ¬(res.flag &&& 0x10 = 0 ∧ res.aeChallenge ≠ sta.aeNonce) := by
  by_cases inside : res.uskid.toNat < 2
  · by_cases used : res.flag &&& 0x10 ≠ 0 ∧ (sta.usksa.usk ⟨res.uskid.toNat, inside⟩).validFlag = true
    · refine Or.inr (Or.inl ⟨?_, .valid unpacked rfl used.1 used.2⟩)
      unfold uskNegotiationRes
      rw [if_neg (by simp [status]), unpacked]
      dsimp only
      rw [dif_pos inside, if_pos used]
    · by_cases challenge : res.aeChallenge = sta.aeNonce
      · refine Or.inl ⟨⟨res.uskid.toNat, inside⟩, status, unpacked, rfl, ?_, challenge⟩
        intro update
        simpa [update] using used
      · refine Or.inr (Or.inl ⟨?_, .challenge unpacked (Or.inl inside) challenge⟩)
        unfold uskNegotiationRes
        rw [if_neg (by simp [status]), unpacked]
        dsimp only
        rw [dif_pos inside, if_neg used, if_pos challenge]
  · by_cases first : res.flag &&& 0x10 = 0 ∧ res.aeChallenge ≠ sta.aeNonce
    · refine Or.inr (Or.inl ⟨?_, .challenge unpacked (Or.inr first.1) first.2⟩)
      unfold uskNegotiationRes
      rw [if_neg (by simp [status]), unpacked]
      dsimp only
      rw [dif_neg inside, if_neg (not_not.mpr first.1), if_pos first.2]
    · refine Or.inr (Or.inr ⟨?_, Nat.not_lt.mp inside, first⟩)
      unfold uskNegotiationRes
      rw [if_neg (by simp [status]), unpacked]
      dsimp only
      rw [dif_neg inside]
      split
      · rfl
      next update =>
        rw [not_not] at update
        exact if_neg fun other => first ⟨update, other⟩

/-- A response leaves no trace exactly if it is harmless. -/
theorem uskNegotiationRes_leavesNoTrace (cfg : Config) (sta : Sta) (frame : Bytes) :
    LeavesNoTrace cfg sta frame ↔ Harmless cfg sta frame := by
  cases status : acceptsUskResponse sta.status with
  | false =>
    exact iff_of_true (leavesNoTrace_of_refused (uskNegotiationRes_early (Or.inl status)))
      (.status status)
  | true =>
    cases unpacked : unpackUcastkeyNegResponse frame with
    | error fault =>
      cases fault with
      | packError =>
        exact iff_of_true (leavesNoTrace_of_refused (uskNegotiationRes_early (Or.inr unpacked)))
          (.malformed unpacked)
      | overrun =>
        apply iff_of_false
        · intro traceless
          apply traceless.1
          unfold uskNegotiationRes
          rw [if_neg (by simp [status]), unpacked]
        · intro harmless
          cases harmless with
          | status waits => simp [status] at waits
          | malformed other => simp [unpacked] at other
          | valid other => simp [unpacked] at other
          | challenge other => simp [unpacked] at other
          | authentic other => simp [unpacked] at other
          | derived other => simp [unpacked] at other
    | ok res =>
      rcases @uskNegotiationRes_unpacked cfg _ _ _ status unpacked with
        ⟨uskid, response⟩ | ⟨refused, harmless⟩ | ⟨undefined, outside, late⟩
      · rw [response.leavesNoTrace_iff]
        constructor
        · rintro (mic | same)
          · exact .authentic unpacked (by have := response.index; omega) mic
          · exact .derived unpacked response.index same
        · intro harmless
          cases harmless with
          | status waits => simp [status] at waits
          | malformed other => simp [unpacked] at other
          | valid other index update used =>
            obtain rfl := Except.ok.inj (unpacked.symm.trans other)
            have same := Fin.ext (index.symm.trans response.index)
            rw [same, response.update update] at used
            exact absurd used (by simp)
          | challenge other _ differs =>
            obtain rfl := Except.ok.inj (unpacked.symm.trans other)
            exact absurd response.challenge differs
          | authentic other _ mic =>
            obtain rfl := Except.ok.inj (unpacked.symm.trans other)
            exact Or.inl mic
          | derived other index same =>
            obtain rfl := Except.ok.inj (unpacked.symm.trans other)
            have slot := Fin.ext (index.symm.trans response.index)
            exact Or.inr (slot ▸ same)
      · exact iff_of_true (leavesNoTrace_of_refused refused) harmless
      · apply iff_of_false
        · exact fun traceless => traceless.1 undefined
        · intro harmless
          cases harmless with
          | status waits => simp [status] at waits
          | malformed other => simp [unpacked] at other
          | valid other index =>
            obtain rfl := Except.ok.inj (unpacked.symm.trans other)
            omega
          | challenge other index differs =>
            obtain rfl := Except.ok.inj (unpacked.symm.trans other)
            exact late ⟨index.resolve_left (by omega), differs⟩
          | authentic other index =>
            obtain rfl := Except.ok.inj (unpacked.symm.trans other)
            omega
          | derived other index =>
            obtain rfl := Except.ok.inj (unpacked.symm.trans other)
            omega

end Traces

def negotiating : Sta :=
  { resetStaInfo with
    mac := stationMac 1
    wie := fixed 256 stationWie
    status := .waitingSession
    aeNonce := challenge 0x61 }

def genuineAnswer : Bytes :=
  uskAnswer (network 0x07) negotiating.bksa.bk (challenge 0x62) 0
    (packUskRequest (network 0x07) negotiating 0)

def forgedAnswer : Bytes := genuineAnswer.take (genuineAnswer.length - 20) ++ List.replicate 20 0

/-- Whether `usk_negotiation_res` returned 0. -/
def UskResult.taken : UskResult → Bool
  | .accepted _ => true
  | .disauthenticated _ => true
  | _ => false

/-- The answer of the station is taken, but not any more after a forged one. -/
theorem forged_answer_leaves_trace :
    ¬LeavesNoTrace (network 0x07) negotiating forgedAnswer ∧
      (uskNegotiationRes (network 0x07) negotiating genuineAnswer).taken = true ∧
      ∃ after, uskNegotiationRes (network 0x07) negotiating forgedAnswer = .refused after ∧
        (uskNegotiationRes (network 0x07) after genuineAnswer).taken = false := by
  have refused : ∃ after,
      uskNegotiationRes (network 0x07) negotiating forgedAnswer = .refused after ∧
        (uskNegotiationRes (network 0x07) after genuineAnswer).taken = false := by
    have turned : (match uskNegotiationRes (network 0x07) negotiating forgedAnswer with
        | .refused after => (uskNegotiationRes (network 0x07) after genuineAnswer).taken
        | _ => true) = false := by
      decide +kernel
    split at turned
    next after result => exact ⟨after, result, turned⟩
    next => exact absurd turned (by simp)
  have taken : (uskNegotiationRes (network 0x07) negotiating genuineAnswer).taken = true := by
    decide +kernel
  refine ⟨?_, taken, refused⟩
  intro traceless
  obtain ⟨after, result, locked⟩ := refused
  rw [(traceless.2 after result).2 genuineAnswer, taken] at locked
  exact absurd locked (by simp)

end AthApps.Wapi
