import AthApps.Wapi.Waiting

/-!
# Announcements that are turned down

`waigroup_multicast_1_2` stores the index of the group key before it compares the
addresses, and the identifier of the announcement before it looks at the index of
the unicast key and at the authenticator.  Nothing is put back when one of these
is wrong.

The handler reads the payload at fixed offsets, whatever its length is: `memory`
starts with the payload, which has `len` bytes.
-/

set_option autoImplicit false

namespace AthApps.Wapi

open AthApps.Lib

/-- How the handler ends: turned down by one of its tests, or with the response.  The hash of
a text of negative length has no meaning. -/
inductive Announcement
  | undefined
  | refused (asue : Asue)
  | answered (asue : Asue) (marks : List AsueMark)

def waigroupMulticast12In (cfg : Config) (ok : Bool) (asue : Asue) (memory : Bytes) (len : Nat) :
    Announcement :=
  if ¬ (asue.state = .uniAck ∨ asue.state = .finish) ∨ byteAt memory 0 &&& 0x20 ≠ 0 then
    .refused asue
  else
    let asue := { asue with mskid := byteAt memory 1 }
    let keyAnId := slice memory 31 16
    if slice memory 3 12 ≠ asue.bssid.toList ++ asue.ownAddr.toList ∨
        memcmpLess keyAnId asue.mskAnnId then
      .refused asue
    else
      let asue := { asue with mskAnnId := keyAnId }
      let usk := asue.usk asue.uskid
      if (byteAt memory 2).toNat ≠ asue.uskid.val then .refused asue
      else if len < 20 then .undefined
      else if cfg.mic usk.mak (slice memory 0 (len - 20)) ≠ slice memory (len - 20) 20 then
        .refused asue
      else
        let plain := cfg.crypto.wpiEncrypt keyAnId (slice memory 48 16) usk.kek.toList
        let body := slice memory 0 15 ++ keyAnId
        let response := buildFrame .mskResponse (asue.txseq + 1) (body ++ cfg.mic usk.mak body)
        .answered (timerSet 3 response
            { asue with
              msk := cfg.crypto.kdHmacSha256 mskText (plain.toList.take (byteAt memory 47).toNat) 32
              txseq := asue.txseq + 1
              state := if ok then .finish else .mulResp })
          [.sent response]

def Announcement.result (asue : Asue) : Announcement → Asue × List AsueMark
  | .undefined => (asue, [])
  | .refused asue => (asue, [])
  | .answered asue marks => (asue, marks)

/-- On the payload of a frame the handler does what it does on the frame. -/
theorem waigroupMulticast12_payload (cfg : Config) (ok : Bool) (asue : Asue) {frame : Bytes}
    (long : headLen + 20 ≤ frame.length) :
    (waigroupMulticast12In cfg ok asue (payload frame) (payload frame).length).result asue =
      waigroupMulticast12 cfg ok asue frame := by
  have twelve : headLen = 12 := rfl
  have byte : ∀ offset, byteAt (payload frame) offset = byteAt frame (headLen + offset) := by
    intro offset
    simp [byteAt, payload, List.getD_eq_getElem?_getD]
  have piece : ∀ offset extent,
      slice (payload frame) offset extent = slice frame (headLen + offset) extent := by
    intro offset extent
    simp [slice, payload]
  have size : (payload frame).length = frame.length - 12 := by simp [payload, twelve]
  have rest : slice frame (12 + (frame.length - 32)) 20 = frame.drop (frame.length - 20) := by
    rw [slice, show 12 + (frame.length - 32) = frame.length - 20 by omega]
    exact List.take_of_length_le (by simp only [List.length_drop]; omega)
  have covered : frame.length - 12 - 20 = frame.length - 32 := by omega
  simp only [waigroupMulticast12In, waigroupMulticast12, byte, piece, size, covered, twelve,
    packMskResponse, rest]
  split
  · rfl
  · split
    · rfl
    · by_cases index : (byteAt frame 14).toNat = asue.uskid.val
      · by_cases mic : cfg.mic (asue.usk asue.uskid).mak (slice frame 12 (frame.length - 32)) =
            frame.drop (frame.length - 20)
        · simp [index, mic, Announcement.result, show ¬frame.length - 12 < 20 by omega]
        · simp [index, mic, Announcement.result, show ¬frame.length - 12 < 20 by omega]
      · simp [index, Announcement.result]

section Traces

variable {cfg : Config} {ok : Bool} {asue : Asue} {memory : Bytes} {len : Nat}

/-- An announcement that is turned down leaves the supplicant as it was, and so every later
announcement fares as it would have without it. -/
def Traceless (cfg : Config) (ok : Bool) (asue : Asue) (memory : Bytes) (len : Nat) : Prop :=
  ∀ after, waigroupMulticast12In cfg ok asue memory len = .refused after → after = asue ∧
      ∀ ok later len, waigroupMulticast12In cfg ok after later len = waigroupMulticast12In cfg ok asue later len

def Addressed (asue : Asue) (memory : Bytes) : Prop :=
  slice memory 3 12 = asue.bssid.toList ++ asue.ownAddr.toList

/-- The announcement never gets to the first store, stores what is there already, or is not
turned down. -/
inductive Ineffective (cfg : Config) (asue : Asue) (memory : Bytes) (len : Nat) : Prop
  | state (other : ¬ (asue.state = .uniAck ∨ asue.state = .finish))
  | stakey (negotiated : byteAt memory 0 &&& 0x20 ≠ 0)
  | foreign (same : byteAt memory 1 = asue.mskid) (foreign : ¬ Addressed asue memory)
  | old (same : byteAt memory 1 = asue.mskid)
      (old : memcmpLess (slice memory 31 16) asue.mskAnnId = true)
  | repeated (same : byteAt memory 1 = asue.mskid) (repeated : slice memory 31 16 = asue.mskAnnId)
  | valid (addressed : Addressed asue memory)
      (new : memcmpLess (slice memory 31 16) asue.mskAnnId = false)
      (index : (byteAt memory 2).toNat = asue.uskid.val)
      (mic : len < 20 ∨ cfg.mic (asue.usk asue.uskid).mak (slice memory 0 (len - 20)) =
        slice memory (len - 20) 20)

theorem traceless_iff_of_refused {after : Asue}
    (refused : waigroupMulticast12In cfg ok asue memory len = .refused after) :
    Traceless cfg ok asue memory len ↔ after = asue := by
  constructor
  · intro traceless
    exact (traceless after refused).1
  · rintro rfl other same
    rw [refused] at same
    cases same
    exact ⟨rfl, fun _ _ _ => rfl⟩

theorem traceless_of_not_refused
    (passes : ∀ after, waigroupMulticast12In cfg ok asue memory len ≠ .refused after) :
    Traceless cfg ok asue memory len := fun after refused => absurd refused (passes after)

theorem index_stored :
    { asue with mskid := byteAt memory 1 } = asue ↔ byteAt memory 1 = asue.mskid := by
  constructor
  · intro same
    exact congrArg Asue.mskid same
  · intro same
    rw [same]

theorem identifier_stored :
    { asue with mskid := byteAt memory 1, mskAnnId := slice memory 31 16 } = asue ↔
      byteAt memory 1 = asue.mskid ∧ slice memory 31 16 = asue.mskAnnId := by
  constructor
  · intro same
    exact ⟨congrArg Asue.mskid same, congrArg Asue.mskAnnId same⟩
  · rintro ⟨index, identifier⟩
    rw [index, identifier]

/-- An announcement that is turned down after both stores is ineffective exactly if what it
stores is there already. -/
theorem fresh_refused_iff
    (passes : ¬ (¬ (asue.state = .uniAck ∨ asue.state = .finish) ∨ byteAt memory 0 &&& 0x20 ≠ 0))
    (fresh : ¬ (slice memory 3 12 ≠ asue.bssid.toList ++ asue.ownAddr.toList ∨
      memcmpLess (slice memory 31 16) asue.mskAnnId = true))
    (wrong : (byteAt memory 2).toNat = asue.uskid.val →
      ¬ (len < 20 ∨ cfg.mic (asue.usk asue.uskid).mak (slice memory 0 (len - 20)) =
        slice memory (len - 20) 20)) :
    byteAt memory 1 = asue.mskid ∧ slice memory 31 16 = asue.mskAnnId ↔
      Ineffective cfg asue memory len := by
  constructor
  · rintro ⟨same, repeated⟩
    exact .repeated same repeated
  · intro ineffective
    cases ineffective with
    | state other => exact absurd (.inl other) passes
    | stakey negotiated => exact absurd (.inr negotiated) passes
    | foreign _ foreign => exact absurd (.inl foreign) fresh
    | old _ old => exact absurd (.inr old) fresh
    | repeated same repeated => exact ⟨same, repeated⟩
    | valid _ _ index mic => exact absurd mic (wrong index)

/-- An announcement leaves no trace exactly if it is ineffective. -/
theorem announcement_traceless (cfg : Config) (ok : Bool) (asue : Asue) (memory : Bytes)
    (len : Nat) : Traceless cfg ok asue memory len ↔ Ineffective cfg asue memory len := by
  by_cases early : ¬ (asue.state = .uniAck ∨ asue.state = .finish) ∨ byteAt memory 0 &&& 0x20 ≠ 0
  · have refused : waigroupMulticast12In cfg ok asue memory len = .refused asue := if_pos early
    exact iff_of_true ((traceless_iff_of_refused refused).mpr rfl) (early.elim .state .stakey)
  obtain ⟨status, negotiated⟩ := not_or.mp early
  by_cases stale : slice memory 3 12 ≠ asue.bssid.toList ++ asue.ownAddr.toList ∨
      memcmpLess (slice memory 31 16) asue.mskAnnId = true
  · have refused : waigroupMulticast12In cfg ok asue memory len =
        .refused { asue with mskid := byteAt memory 1 } := by
      rw [waigroupMulticast12In, if_neg early]
      exact if_pos stale
    rw [traceless_iff_of_refused refused, index_stored]
    constructor
    · intro same
      exact stale.elim (.foreign same) (.old same)
    · intro ineffective
      cases ineffective with
      | state other => exact absurd other status
      | stakey other => exact absurd other negotiated
      | foreign same _ => exact same
      | old same _ => exact same
      | repeated same _ => exact same
      | valid addressed new _ _ =>
        rcases stale with foreign | less
        · exact absurd addressed foreign
        · rw [new] at less
          cases less
  obtain ⟨addressed, new⟩ := not_or.mp stale
  rw [not_not] at addressed
  by_cases index : (byteAt memory 2).toNat = asue.uskid.val
  · by_cases mic : len < 20 ∨ cfg.mic (asue.usk asue.uskid).mak (slice memory 0 (len - 20)) =
        slice memory (len - 20) 20
    · have passes : ∀ after, waigroupMulticast12In cfg ok asue memory len ≠ .refused after := by
        intro after refused
        rw [waigroupMulticast12In, if_neg early] at refused
        replace refused := (if_neg stale).symm.trans refused
        replace refused := (if_neg (not_not.mpr index)).symm.trans refused
        by_cases short : len < 20
        · replace refused := (if_pos short).symm.trans refused
          cases refused
        · replace refused := (if_neg short).symm.trans refused
          replace refused := (if_neg (not_not.mpr (mic.resolve_left short))).symm.trans refused
          cases refused
      exact iff_of_true (traceless_of_not_refused passes)
        (.valid addressed (Bool.eq_false_of_not_eq_true new) index mic)
    · obtain ⟨long, wrong⟩ := not_or.mp mic
      have refused : waigroupMulticast12In cfg ok asue memory len =
          .refused { asue with mskid := byteAt memory 1, mskAnnId := slice memory 31 16 } := by
        rw [waigroupMulticast12In, if_neg early]
        refine (if_neg stale).trans ((if_neg (not_not.mpr index)).trans ?_)
        exact (if_neg long).trans (if_pos wrong)
      rw [traceless_iff_of_refused refused, identifier_stored]
      exact fresh_refused_iff early stale fun _ => mic
  · have refused : waigroupMulticast12In cfg ok asue memory len =
        .refused { asue with mskid := byteAt memory 1, mskAnnId := slice memory 31 16 } := by
      rw [waigroupMulticast12In, if_neg early]
      refine (if_neg stale).trans ?_
      exact if_pos index
    rw [traceless_iff_of_refused refused, identifier_stored]
    exact fresh_refused_iff early stale fun right => absurd right index

end Traces

def listening : Asue :=
  { freshSupplicant.asue with
    state := .uniAck
    uskid := 0
    bssid := (network 0x07).macaddr
    ownAddr := stationMac 1 }

def announcementText (uskid : UInt8) (keyAnId : Bytes) : Bytes :=
  [0, 1, uskid] ++ listening.addid ++ List.replicate 16 0 ++ keyAnId ++ [16] ++ List.replicate 16 7

def genuineAnnouncement : Bytes :=
  let text := announcementText 0 (initIv.take 15 ++ [0x37])
  text ++ (network 0x07).mic (listening.usk 0).mak text

/-- An announcement with the last of all identifiers, under the other unicast key. -/
def forgedAnnouncement : Bytes :=
  announcementText 1 (List.replicate 16 0xFF) ++ List.replicate 20 0

def Announcement.isAnswered : Announcement → Bool
  | .answered _ _ => true
  | _ => false

/-- The announcement of the access point is answered, but not any more after a forged one. -/
theorem forged_announcement_leaves_trace :
    ¬ Traceless (network 0x07) true listening forgedAnnouncement forgedAnnouncement.length ∧
      (waigroupMulticast12In (network 0x07) true listening genuineAnnouncement
        genuineAnnouncement.length).isAnswered = true ∧
      ∃ after, waigroupMulticast12In (network 0x07) true listening forgedAnnouncement
          forgedAnnouncement.length = .refused after ∧
        (waigroupMulticast12In (network 0x07) true after genuineAnnouncement
          genuineAnnouncement.length).isAnswered = false := by
  have refused : ∃ after, waigroupMulticast12In (network 0x07) true listening forgedAnnouncement
        forgedAnnouncement.length = .refused after ∧
      (waigroupMulticast12In (network 0x07) true after genuineAnnouncement
        genuineAnnouncement.length).isAnswered = false := by
    have turned : (match waigroupMulticast12In (network 0x07) true listening forgedAnnouncement
          forgedAnnouncement.length with
        | .refused after => (waigroupMulticast12In (network 0x07) true after genuineAnnouncement
            genuineAnnouncement.length).isAnswered
        | _ => true) = false := by
      decide
    split at turned
    next after result => exact ⟨after, result, turned⟩
    next => cases turned
  have answered : (waigroupMulticast12In (network 0x07) true listening genuineAnnouncement
      genuineAnnouncement.length).isAnswered = true := by
    decide +kernel
  refine ⟨?_, answered, refused⟩
  intro traceless
  obtain ⟨after, result, locked⟩ := refused
  rw [(traceless after result).2, answered] at locked
  cases locked

end AthApps.Wapi
