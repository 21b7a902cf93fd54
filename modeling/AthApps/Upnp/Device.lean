import AthApps.Upnp.Event

/-!
# The UPnP device

The device with its subscriptions, web connections and pending replies to
M-SEARCH, each in a circular list, and the handlers that the event loop knows.
An object has a number that is not used again; a pointer to an object that has
been freed leads nowhere.  `step` is one call into the module: by the event
loop, or by the rest of the program.
-/

set_option autoImplicit false

namespace AthApps.Upnp

open AthApps.Lib
open Function (update)

def maxSubscriptions : Int := 4
def maxWebConnections : Int := 10
def maxMsearch : Int := 20
def upnpSubscribeSec : Int := 1801
def upnpAdvertiseRepeat : Nat := 2

structure WebConnection where
  hread : Bool
  deriving DecidableEq

/-- A pending reply to M-SEARCH; `state` counts the messages. -/
structure AdvertisementStateMachine where
  state : Nat
  deriving DecidableEq

structure Device where
  started : Bool
  eloop : List Callback
  allocated : Nat
  msearchReplies : Lib.Ring Nat
  nMsearchReplies : Int
  msearchReply : Nat → Option AdvertisementStateMachine
  webConnections : Lib.Ring Nat
  nWebConnections : Int
  webConnection : Nat → Option WebConnection
  subscriptions : Lib.Ring Nat
  nSubscriptions : Int
  subscription : Nat → Option Subscription
  eventSendAllQueued : Bool
  clock : Int

namespace Device

def init : Device :=
  { started := false, eloop := [], allocated := 0,
    msearchReplies := .empty, nMsearchReplies := 0, msearchReply := fun _ => none,
    webConnections := .empty, nWebConnections := 0, webConnection := fun _ => none,
    subscriptions := .empty, nSubscriptions := 0, subscription := fun _ => none,
    eventSendAllQueued := false, clock := 0 }

def register (d : Device) (callback : Callback) : Device :=
  { d with eloop := Upnp.register callback d.eloop }

def cancel (d : Device) (callback : Callback) : Device :=
  { d with eloop := Upnp.cancel callback d.eloop }

/-- A timeout that runs is no longer registered. -/
def fires (d : Device) (callback : Callback) : Device :=
  { d with eloop := d.eloop.erase callback }

def outbox (d : Device) (s : Subscription) : Outbox := ⟨s, d.eloop, d.eventSendAllQueued⟩

def setOutbox (d : Device) (t : Outbox) : Device :=
  { d with
    subscription := update d.subscription t.s.id (some t.s),
    eloop := t.eloop,
    eventSendAllQueued := t.eventSendAllQueued }

def eventSendAllLater (d : Device) (registers : Bool) : Device :=
  if d.eventSendAllQueued then d
  else
    let d := { d with eventSendAllQueued := true }
    if registers then d.register .sendAllLater else d

def subscriptionUnlink (d : Device) (i : Nat) : Option Device := do
  let ring ← d.subscriptions.unlink i
  some { d with subscriptions := ring, nSubscriptions := d.nSubscriptions - 1 }

def subscriptionLinkToEnd (d : Device) (i : Nat) : Option Device := do
  let ring ← d.subscriptions.linkToEnd i
  some { d with subscriptions := ring, nSubscriptions := d.nSubscriptions + 1 }

def subscriptionDestroy (d : Device) (i : Nat) : Option Device := do
  let s ← d.subscription i
  let t ← (d.outbox s).eventDeleteAll
  let d := d.setOutbox t
  some { d with subscription := update d.subscription i none }

def subscriptionRemove (d : Device) (i : Nat) : Option Device := do
  let d ← d.subscriptionUnlink i
  d.subscriptionDestroy i

def ageLoop (now : Int) : Nat → Device → Option Device
  | 0, d =>
    match d.subscriptions.head with
    | none => some d
    | some i => do
        let s ← d.subscription i
        if s.timeoutTime < now then none else some d
  | fuel + 1, d =>
    match d.subscriptions.head with
    | none => some d
    | some i => do
        let s ← d.subscription i
        if s.timeoutTime < now then do
          let d ← d.subscriptionRemove i
          ageLoop now fuel d
        else some d

def subscriptionListAge (d : Device) (now : Int) : Option Device :=
  ageLoop now d.nSubscriptions.toNat d

def findLoop (d : Device) (uuid : Bytes) : Nat → Nat → Option (Option Nat)
  | 0, _ => none
  | fuel + 1, i => do
      let s ← d.subscription i
      if s.uuid = uuid then some (some i)
      else do
        let next ← d.subscriptions.next i
        if d.subscriptions.head = some next then some none else findLoop d uuid fuel next

def subscriptionFind (d : Device) (uuid : Bytes) : Option (Option Nat) :=
  match d.subscriptions.head with
  | none => some none
  | some i => d.findLoop uuid d.nSubscriptions.toNat i

/-- What `subscription_start` depends on: the answers of the system, the new uuid, the number of
addresses in the callback urls and the text of the first event. -/
structure Subscribe where
  now : Int
  memory : Bool
  uuid : Bytes
  nAddr : Nat
  data : Bytes
  firstEvent : Bool

/-- If there are too many subscriptions the oldest is trashed. -/
def subscriptionMakeRoom (d : Device) : Option Device :=
  if maxSubscriptions ≤ d.nSubscriptions then do
    let i ← d.subscriptions.head
    d.subscriptionRemove i
  else some d

def subscriptionStart (d : Device) (r : Subscribe) (registers : Bool) : Option Device := do
  let d := { d with clock := r.now }
  let d ← d.subscriptionListAge r.now
  let d ← d.subscriptionMakeRoom
  if r.memory = false then some d
  else do
    let i := d.allocated
    let s := Outbox.created i r.nAddr r.uuid (r.now + upnpSubscribeSec)
    let d := { d with
      allocated := i + 1, subscription := update d.subscription i (some s) }
    let d ← d.subscriptionLinkToEnd i
    let (t, failed) ← (d.outbox s).eventAdd r.data r.firstEvent registers
    let d := d.setOutbox t
    if failed then d.subscriptionRemove i
    else some (d.eventSendAllLater registers)

def subscriptionRenew (d : Device) (now : Int) (uuid : Bytes) : Option Device := do
  let d := { d with clock := now }
  let found ← d.subscriptionFind uuid
  match found with
  | none => some d
  | some i => do
      let d ← d.subscriptionUnlink i
      let s ← d.subscription i
      let s := { s with timeoutTime := now + upnpSubscribeSec }
      let d := { d with subscription := update d.subscription i (some s) }
      d.subscriptionLinkToEnd i

def webConnectionParseUnsubscribe (d : Device) (uuid : Bytes) : Option Device := do
  let found ← d.subscriptionFind uuid
  match found with
  | none => some d
  | some i => d.subscriptionRemove i

def sendVarTo (d : Device) (data : Bytes) (memory registers : Bool) (i : Nat) :
    Option Device := do
  let s ← d.subscription i
  let (t, failed) ← (d.outbox s).eventAdd data memory registers
  let d := d.setOutbox t
  if failed then d.subscriptionRemove i else some d

/-- The loop of `upnp_wps_device_send_var`; it compares with a pointer that may be stale. -/
def sendVarLoop (data : Bytes) (memory : Nat → Bool) (registers : Bool) :
    Nat → Nat → Device → Option Device
  | 0, _, _ => none
  | fuel + 1, i, d => do
      let next ← d.subscriptions.next i
      let d ← d.sendVarTo data (memory i) registers i
      if d.subscriptions.head = some next then some d
      else sendVarLoop data memory registers fuel next d

def upnpWpsDeviceSendVar (d : Device) (data : Bytes) (memory : Nat → Bool)
    (registers : Bool) : Option Device :=
  match d.subscriptions.head with
  | none => some d
  | some i => sendVarLoop data memory registers d.nSubscriptions.toNat i d

/-- One round of `event_send_all_later_handler`: a subscription without addresses is removed. -/
def sendAllTo (d : Device) (outcome : Outbox.SendStart) (registers : Bool) (i : Nat) :
    Option (Device × Bool) := do
  let s ← d.subscription i
  if s.nAddr = 0 then do
    let d ← d.subscriptionRemove i
    some (d, false)
  else do
    let (t, failed) ← (d.outbox s).visit outcome registers
    some (d.setOutbox t, failed)

/-- The loop of `event_send_all_later_handler`; the second result is whether there was an error. -/
def sendAllLoop (outcome : Nat → Outbox.SendStart) (registers : Bool) :
    Nat → Nat → Device → Bool → Option (Device × Bool)
  | 0, _, _, _ => none
  | fuel + 1, i, d, nerrors => do
      let next ← d.subscriptions.next i
      let (d, failed) ← d.sendAllTo (outcome i) registers i
      let nerrors := nerrors || failed
      if d.subscriptions.head = none ∨ d.subscriptions.head = some next then some (d, nerrors)
      else sendAllLoop outcome registers fuel next d nerrors

def sendAll (d : Device) (outcome : Nat → Outbox.SendStart) (registers : Bool) :
    Option (Device × Bool) :=
  match d.subscriptions.head with
  | none => some (d, false)
  | some i => sendAllLoop outcome registers d.nSubscriptions.toNat i d false

def eventSendAllLaterHandler (d : Device) (outcome : Nat → Outbox.SendStart) (registers : Bool) :
    Option Device := do
  let d := { d with eventSendAllQueued := false }
  let (d, nerrors) ← d.sendAll outcome registers
  some (if nerrors then d.eventSendAllLater registers else d)

def msearchreplyStateMachineStop (d : Device) (a : Nat) : Option Device := do
  let _ ← d.msearchReply a
  let ring ← d.msearchReplies.unlink a
  some { d with
    msearchReplies := ring,
    msearchReply := update d.msearchReply a none,
    nMsearchReplies := d.nMsearchReplies - 1 }

def msearchreplyStateMachineHandler (d : Device) (a : Nat) (memory registers : Bool) :
    Option Device := do
  let m ← d.msearchReply a
  if memory = false then some d
  else if 4 * upnpAdvertiseRepeat ≤ m.state + 1 then d.msearchreplyStateMachineStop a
  else
    let d := { d with
      msearchReply := update d.msearchReply a (some { m with state := m.state + 1 }) }
    some (if registers then d.register (.msearchReply a) else d)

def msearchreplyStateMachineStart (d : Device) (memory registers : Bool) : Option Device :=
  if maxMsearch ≤ d.nMsearchReplies then some d
  else if memory = false then some d
  else if registers = false then some d
  else do
    let a := d.allocated
    let d := { d with
      allocated := a + 1, msearchReply := update d.msearchReply a (some ⟨0⟩) }
    let d := d.register (.msearchReply a)
    let ring ← d.msearchReplies.linkToEnd a
    some { d with msearchReplies := ring, nMsearchReplies := d.nMsearchReplies + 1 }

def webConnectionStop (d : Device) (c : Nat) : Option Device := do
  let w ← d.webConnection c
  let d := if w.hread then d.cancel (.webRequest c) else d
  let ring ← d.webConnections.unlink c
  some { d with
    webConnections := ring,
    webConnection := update d.webConnection c none,
    nWebConnections := d.nWebConnections - 1 }

/-- `hread` tells whether `httpread_create` succeeds. -/
def webConnectionStart (d : Device) (memory hread : Bool) : Option Device :=
  if maxWebConnections ≤ d.nWebConnections then some d
  else if memory = false then some d
  else
    let c := d.allocated
    let d := { d with
      allocated := c + 1, webConnection := update d.webConnection c (some ⟨hread⟩) }
    if hread then do
      let d := d.register (.webRequest c)
      let ring ← d.webConnections.linkToEnd c
      some { d with webConnections := ring, nWebConnections := d.nWebConnections + 1 }
    else d.webConnectionStop c

/-- What a request asks for; `other` stands for all that leaves the device as it is. -/
inductive Request
  | other
  | subscribe (r : Subscribe)
  | renew (now : Int) (uuid : Bytes)
  | unsubscribe (uuid : Bytes)
  | action (data : Bytes) (memory : Nat → Bool)

/-- The request is none if there is no file, because of a timeout or an error. -/
def webConnectionCheckData (d : Device) (request : Option Request) (registers : Bool) :
    Option Device :=
  match request with
  | none => some d
  | some .other => some d
  | some (.subscribe r) => d.subscriptionStart r registers
  | some (.renew now uuid) => d.subscriptionRenew now uuid
  | some (.unsubscribe uuid) => d.webConnectionParseUnsubscribe uuid
  | some (.action data memory) => d.upnpWpsDeviceSendVar data memory registers

def webConnectionGotFileHandler (d : Device) (c : Nat) (request : Option Request)
    (registers : Bool) : Option Device := do
  let d ← d.webConnectionCheckData request registers
  d.webConnectionStop c

def stopWebLoop : Nat → Device → Option Device
  | 0, d => if d.webConnections.head.isNone then some d else none
  | fuel + 1, d =>
    match d.webConnections.head with
    | none => some d
    | some c => do
        let d ← d.webConnectionStop c
        stopWebLoop fuel d

def stopMsearchLoop : Nat → Device → Option Device
  | 0, d => if d.msearchReplies.head.isNone then some d else none
  | fuel + 1, d =>
    match d.msearchReplies.head with
    | none => some d
    | some a => do
        let d ← d.msearchreplyStateMachineStop a
        stopMsearchLoop fuel d

def stopSubscriptionLoop : Nat → Device → Option Device
  | 0, d => if d.subscriptions.head.isNone then some d else none
  | fuel + 1, d =>
    match d.subscriptions.head with
    | none => some d
    | some i => do
        let d ← d.subscriptionRemove i
        stopSubscriptionLoop fuel d

def eventSendStopAll (d : Device) : Device :=
  let d := if d.eventSendAllQueued then d.cancel .sendAllLater else d
  { d with eventSendAllQueued := false }

def upnpWpsDeviceStop (d : Device) : Option Device :=
  if d.started = false then some d
  else do
    let d := d.cancel .webListener
    let d ← stopWebLoop d.nWebConnections.toNat d
    let d ← stopMsearchLoop d.nMsearchReplies.toNat d
    let d ← stopSubscriptionLoop d.nSubscriptions.toNat d
    let d := d.cancel .advertisement
    let d := d.eventSendStopAll
    let d := d.cancel .ssdpListener
    some { d with started := false }

/-- How far `upnp_wps_device_start` gets. -/
inductive Start
  | noNetwork
  | noWeb
  | noSsdp
  | noMulticast
  | noAdvertisement
  | fine
  deriving DecidableEq

def advertisementStateMachineStart (d : Device) (registers : Bool) : Device :=
  let d := d.cancel .advertisement
  if registers then d.register .advertisement else d

def upnpWpsDeviceStart (d : Device) (outcome : Start) : Option Device := do
  let d ← d.upnpWpsDeviceStop
  let d := { d with started := true }
  let listening := d.register .webListener
  let searched := listening.register .ssdpListener
  match outcome with
  | .noNetwork => d.upnpWpsDeviceStop
  | .noWeb => d.upnpWpsDeviceStop
  | .noSsdp => listening.upnpWpsDeviceStop
  | .noMulticast => searched.upnpWpsDeviceStop
  | .noAdvertisement => (searched.advertisementStateMachineStart false).upnpWpsDeviceStop
  | .fine => some (searched.advertisementStateMachineStart true)

inductive Call
  | start (outcome : Start)
  | stop
  | readvertise
  | advertise
  | accept (memory hread : Bool)
  | request (c : Nat) (request : Option Request)
  | msearch (memory : Bool)
  | msearchTimeout (a : Nat) (memory : Bool)
  | sendVar (data : Bytes) (memory : Nat → Bool)
  | sendAll (outcome : Nat → Outbox.SendStart)
  | event (i : Nat) (occurrence : Occurrence)

/-- What an event of a subscription asks for; adding an event and waking the sender are calls of
their own. -/
def eventCall (d : Device) (i : Nat) (occurrence : Occurrence) (registers : Bool) :
    Option Device := do
  let s ← d.subscription i
  let (t, gone) ← (d.outbox s).occurs occurrence registers
  let d := d.setOutbox t
  if gone then d.subscriptionRemove i else some d

/-- `registers` tells whether `eloop_register_timeout` succeeds for what is to be done later. -/
def step (d : Device) (input : Call × Bool) : Option Device :=
  let registers := input.2
  match input.1 with
  | .start outcome => d.upnpWpsDeviceStart outcome
  | .stop => d.upnpWpsDeviceStop
  | .readvertise => some (d.advertisementStateMachineStart registers)
  | .advertise =>
    if .advertisement ∈ d.eloop then
      let d := d.fires .advertisement
      some (if registers then d.register .advertisement else d)
    else none
  | .accept memory hread =>
    if .webListener ∈ d.eloop then d.webConnectionStart memory hread else none
  | .request c request =>
    if .webRequest c ∈ d.eloop then d.webConnectionGotFileHandler c request registers else none
  | .msearch memory =>
    if .ssdpListener ∈ d.eloop then d.msearchreplyStateMachineStart memory registers else none
  | .msearchTimeout a memory =>
    if .msearchReply a ∈ d.eloop then
      (d.fires (.msearchReply a)).msearchreplyStateMachineHandler a memory registers
    else none
  | .sendVar data memory => d.upnpWpsDeviceSendVar data memory registers
  | .sendAll outcome =>
    if .sendAllLater ∈ d.eloop then
      (d.fires .sendAllLater).eventSendAllLaterHandler outcome registers
    else none
  | .event i occurrence =>
    match occurrence with
    | .add _ _ => none
    | .wake _ => none
    | occurrence => d.eventCall i occurrence registers

end Device

end AthApps.Upnp
