import AthApps.Wapi.KeyNeg

/-!
# The supplicant

The key negotiation of `libiwnwai_asue`: `iwn_wapi_sm_rx_wai` in `wapi.c` with
the handlers of unicast negotiation and group key announcement, and the timer of
`interface.c`.

Frames come in whole, as `wapid` sends them, so nothing is put together from
fragments, and the memory for a frame is there.  The frames of certificate
authentication, which would change the base key, have no reaction here.
-/

set_option autoImplicit false

namespace AthApps.Wapi

open AthApps.Lib

/-- `wapi_states` -/
inductive AsueState
  | noAssoc
  | alAssoc
  | cntReq
  | cntResp
  | uniResp
  | uniAck
  | mulResp
  | finish
  deriving DecidableEq

/-- `struct wapi_usk` -/
structure AsueUsk where
  uek : Vector UInt8 16
  uck : Vector UInt8 16
  mak : Vector UInt8 16
  kek : Vector UInt8 16
  aeChallenge : Vector UInt8 32
  asueChallenge : Vector UInt8 32

/-- `struct timer_dispose`; `running` says that the timer of the system exists. -/
structure AsueTimer where
  t : Nat
  dat : Bytes
  ctm : Nat
  ctx : Nat
  running : Bool

/-- `struct wapi_asue_st` -/
structure Asue where
  state : AsueState
  -- `ap_type` is the one with a preshared key
  psk : Bool
  hasCert : Bool
  uskUpdated : Bool
  bk : Vector UInt8 16
  bkid : Vector UInt8 16
  uskid : Fin 2
  usk : Fin 2 → AsueUsk
  mskid : UInt8
  msk : Bytes
  mskAnnId : Bytes
  bssid : Mac
  ownAddr : Mac
  assocWapiIe : Bytes
  apWapiIe : Bytes
  rxseq : UInt16
  txseq : UInt16
  timer : AsueTimer

/-- The calls that statements about a run speak of. -/
inductive AsueMark
  | sent (frame : Bytes)
  -- a key was derived from the two challenges
  | derived (aeChallenge asueChallenge : Vector UInt8 32)
  -- `WIFI_unicast_key_set` was called after a confirmation was accepted
  | keySet (frame : Bytes) (id : Fin 2) (usk : AsueUsk)
  | deauth

/-- `wpa_build_hdr` and `wpa_set_length` -/
def buildFrame (subType : SubType) (txseq : UInt16) (body : Bytes) : Bytes :=
  packMessage subType txseq.toNat body

variable (cfg : Config) (ok : Bool) (asue : Asue) (frame : Bytes)

/-- `check_wai_frame`; whether the frame may be looked at. -/
def checkWaiFrame : Bool :=
  let stype := getPacketSubType frame
  headLen ≤ frame.length && readWord frame 0 == 1 && byteAt frame 2 == 1 &&
    !(asue.psk && stype < SubType.uskNegRequest.code || stype < SubType.authactive.code) &&
    readWord frame 6 == frame.length && asue.rxseq.toNat ≤ readWord frame 8

def payload : Bytes := frame.drop headLen

/-- The unicast keys out of the expanded base key; the last part is hashed once more. -/
def AsueUsk.derive (bk : Vector UInt8 16) (addid : Bytes)
    (aeChallenge asueChallenge : Vector UInt8 32) : AsueUsk :=
  let master := cfg.masterKey bk addid aeChallenge asueChallenge
  { uek := fixed 16 (slice master 0 16)
    uck := fixed 16 (slice master 16 16)
    mak := fixed 16 (slice master 32 16)
    kek := fixed 16 (slice master 48 16)
    aeChallenge := cfg.nextNonce master
    asueChallenge := asueChallenge }

def wlanDeauth : Asue × List AsueMark :=
  let marks := if asue.bssid = zeros 6 then [] else [.deauth]
  ({ asue with state := .noAssoc, uskid := 1, bssid := zeros 6 }, marks)

def timerDestory : Asue :=
  { asue with timer := { asue.timer with t := 0, running := false } }

def wlanDeauthForOtherc : Asue × List AsueMark :=
  ((timerDestory (wlanDeauth asue).1), (wlanDeauth asue).2)

def timerSet (t : Nat) (frame : Bytes) (asue : Asue) : Asue :=
  { asue with timer := { asue.timer with t := t, dat := frame, ctm := 0, ctx := 0 } }

def timerReset : Asue := { asue with timer := { asue.timer with t := 0 } }

/-- One more try: the frame is sent again, and the third failure ends the association. -/
def timerRetry : Asue × List AsueMark :=
  let timer := asue.timer
  if 3 ≤ timer.ctx + 1 then
    if timer.t = 1 ∨ timer.t = 2 then
      wlanDeauthForOtherc asue
    else
      (timerDestory asue, [])
  else
    ({ asue with timer := { timer with ctx := timer.ctx + 1, ctm := 0 } }, [.sent timer.dat])

def timerRun : Asue × List AsueMark :=
  let timer := asue.timer
  let limit := if timer.t = 1 then 124 else 4
  if timer.running = false ∨ timer.t = 0 ∨ 3 < timer.t then (asue, [])
  else if timer.ctm + 1 < limit then
    ({ asue with timer := { timer with ctm := timer.ctm + 1 } }, [])
  else
    timerRetry asue

def timerResend : Asue × List AsueMark :=
  if asue.timer.t = 1 ∨ asue.timer.t = 2 then timerRetry asue else (asue, [])

/-- The states in which `waigroup_unicast_1_3` takes a request. -/
def acceptsRequest (update : Bool) : Bool :=
  let required :=
    if update then AsueState.finish else if asue.psk then .alAssoc else .cntResp
  asue.state == required || (asue.uskUpdated && update &&
      (asue.state == .finish || asue.state == .uniAck || asue.state == .cntResp))

def packUskResponse (request : Bytes) (usk : AsueUsk) : Bytes :=
  let body := slice request headLen 30 ++ usk.asueChallenge.toList ++
    slice request (headLen + 30) 32 ++ asue.assocWapiIe
  buildFrame .uskNegResponse (asue.txseq + 1) (body ++ cfg.mic usk.mak body)

/-- `waigroup_unicast_2_3_send`, after the keys were derived. -/
def waigroupUnicast23Send (request : Bytes) (uskid : Fin 2)
    (usk : AsueUsk) : Asue × List AsueMark :=
  let frame := packUskResponse cfg asue request usk
  (timerSet 2 frame
    { asue with
      uskid := uskid
      usk := Function.update asue.usk uskid usk
      txseq := asue.txseq + 1
      state := .uniResp },
    [.sent frame])

/-- The results 0, -1 and -2 of a handler; a handler may use an index that is outside
of an array, and from there on the program has no meaning. -/
inductive Handled
  | undefined
  | done (asue : Asue) (marks : List AsueMark)
  | discarded (asue : Asue) (marks : List AsueMark)
  | wrongKey

def waigroupUnicast13 (nonce : Vector UInt8 32) (asue : Asue) (frame : Bytes) : Handled :=
  let update := byteAt frame 12 &&& 0x10 != 0
  let aeChallenge := fixed 32 (slice frame 42 32)
  if (payload frame).length < 62 ∨ acceptsRequest asue update = false then .discarded asue []
  else if slice frame 13 16 ≠ asue.bkid.toList then .wrongKey
  else if update ∧ (byteAt frame 29).toNat ≠ (other asue.uskid).val then .discarded asue []
  else if update ∧ (asue.usk asue.uskid).aeChallenge ≠ aeChallenge then .discarded asue []
  else if inside : (byteAt frame 29).toNat < 2 then
    let uskid : Fin 2 := ⟨(byteAt frame 29).toNat, inside⟩
    let usk := AsueUsk.derive cfg asue.bk (slice frame 30 12) aeChallenge nonce
    let result := waigroupUnicast23Send cfg asue frame uskid usk
    .done result.1 (.derived aeChallenge nonce :: result.2)
  else
    .undefined

/-- The tests of `waigroup_unicast_3_3`. -/
def confirmationValid : Bool :=
  let usk := asue.usk asue.uskid
  let covered := slice frame headLen (frame.length - 32)
  let wieLen := ((byteAt frame 75).toNat + 2) % 256
  asue.state == .uniResp && usk.asueChallenge.toList == slice frame 42 32 &&
    cfg.mic usk.mak covered == frame.drop (frame.length - 20) &&
    (byteAt frame 12 &&& 0x10 != 0 ||
      wieLen == asue.apWapiIe.length && slice frame 74 wieLen == asue.apWapiIe)

/-- `waigroup_unicast_3_3`; `ok` is the outcome of `WIFI_unicast_key_set`. -/
def waigroupUnicast33 : Handled :=
  if confirmationValid cfg asue frame = false then .discarded asue []
  else if inside : (byteAt frame 29).toNat < 2 then
    let uskid : Fin 2 := ⟨(byteAt frame 29).toNat, inside⟩
    let asue := { asue with uskid := uskid }
    let marks := [.keySet frame uskid (asue.usk uskid)]
    if ok then
      .done { asue with
        state := .uniAck
        uskUpdated := asue.uskUpdated || byteAt frame 12 &&& 0x10 != 0 } marks
    else
      .discarded asue marks
  else
    .undefined

def mskText : Bytes :=
  ascii "multicast or station key expansion for station unicast and multicast and broadcast"

/-- Whether one byte string is before another one, as `memcmp` has it. -/
def memcmpLess : Bytes → Bytes → Bool
  | x :: xs, y :: ys => x < y || x == y && memcmpLess xs ys
  | _, _ => false

def packMskResponse : Bytes :=
  let body := slice frame headLen 15 ++ slice frame 43 16
  buildFrame .mskResponse (asue.txseq + 1) (body ++ cfg.mic (asue.usk asue.uskid).mak body)

/-- `waigroup_multicast_1_2` and `waigroup_multicast_2_2_send`; `ok` is the outcome of
`WIFI_group_key_set`. -/
def waigroupMulticast12 : Asue × List AsueMark :=
  if ¬ (asue.state = .uniAck ∨ asue.state = .finish) ∨ byteAt frame 12 &&& 0x20 ≠ 0 then
    (asue, [])
  else
    let asue := { asue with mskid := byteAt frame 13 }
    if slice frame 15 12 ≠ asue.bssid.toList ++ asue.ownAddr.toList ∨
        memcmpLess (slice frame 43 16) asue.mskAnnId then
      (asue, [])
    else
      let asue := { asue with mskAnnId := slice frame 43 16 }
      let usk := asue.usk asue.uskid
      if (byteAt frame 14).toNat ≠ asue.uskid.val ∨
          cfg.mic usk.mak (slice frame headLen (frame.length - 32)) ≠
            frame.drop (frame.length - 20) then
        (asue, [])
      else
        let plain := cfg.crypto.wpiEncrypt (slice frame 43 16) (slice frame 60 16) usk.kek.toList
        let response := packMskResponse cfg asue frame
        (timerSet 3 response
          { asue with
            msk := cfg.crypto.kdHmacSha256 mskText (plain.toList.take (byteAt frame 59).toNat) 32
            txseq := asue.txseq + 1
            state := if ok then .finish else .mulResp },
          [.sent response])

/-- `iwn_wapi_sm_rx_wai`; there is no result for certificate authentication. -/
def iwnWapiSmRxWai (nonce : Vector UInt8 32) (ok : Bool) (asue : Asue)
    (frame : Bytes) : Option (Asue × List AsueMark) :=
  if asue.state = .noAssoc ∨ (asue.psk = false ∧ asue.hasCert = false) ∨
      checkWaiFrame asue frame = false then
    some (asue, [])
  else
    let stype := getPacketSubType frame
    if stype = SubType.authactive.code ∨ stype = SubType.staAccessResponse.code then none
    else if stype = SubType.uskNegRequest.code then
      match waigroupUnicast13 cfg nonce asue frame with
      | .undefined => none
      | .done asue marks | .discarded asue marks => some (asue, marks)
      | .wrongKey => some (wlanDeauthForOtherc asue)
    else if stype = SubType.uskNegConfirm.code then
      match waigroupUnicast33 cfg ok asue frame with
      | .undefined | .wrongKey => none
      | .done asue marks => some (timerReset asue, marks)
      | .discarded asue marks => some ((timerResend asue).1, marks ++ (timerResend asue).2)
    else if stype = SubType.mskAnnounce.code then
      some (waigroupMulticast12 cfg ok asue frame)
    else
      some (asue, [])

end AthApps.Wapi
