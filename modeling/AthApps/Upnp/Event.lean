import AthApps.Lib.Ring
import AthApps.Lib.Word
import AthApps.Lib.Trace

/-!
# Event messages to a subscriber

One subscription of the UPnP device with its queue of events, the event that
is being sent, and what the event loop has registered for it.  Each function
of the source is one function on this state; the outcome of a system call is
an argument, and where the source would follow a null pointer or fail an
assertion there is no result.

An event is named by its number in the order of `event_add`.  What becomes of
it is written into a history, which the code does not have.
-/

set_option autoImplicit false

namespace AthApps.Upnp

open AthApps.Lib

def maxEventsQueued : Int := 20

/-- The handlers that the event loop knows, with the object they are called for. -/
inductive Callback
  | sendAllLater
  | eventTimeout (s e : Nat)
  | eventTxReady (s e : Nat)
  | eventResponse (s e : Nat)
  | msearchReply (a : Nat)
  | webRequest (c : Nat)
  | advertisement
  | webListener
  | ssdpListener
  deriving DecidableEq

def register (callback : Callback) (eloop : List Callback) : List Callback := callback :: eloop

def cancel (callback : Callback) (eloop : List Callback) : List Callback :=
  eloop.filter fun other => other ≠ callback

structure WpsEvent where
  subscriberSequence : UInt32
  retry : Nat
  addr : Nat
  data : Bytes
  sd : Bool
  sdRegistered : Bool
  hread : Bool
  deriving DecidableEq

/-- What became of an event; `address` counts the addresses of the subscription. -/
inductive Mark
  | added (e : Nat)
  | notified (e : Nat) (address : Nat)
  | failed (e : Nat) (address : Nat)
  | acknowledged (e : Nat)
  | gaveUp (e : Nat)
  deriving DecidableEq

structure Subscription where
  id : Nat
  timeoutTime : Int
  nextSubscriberSequence : UInt32
  uuid : Bytes
  nAddr : Nat
  eventQueue : Lib.Ring Nat
  nQueue : Int
  currentEvent : Option Nat
  event : Nat → Option WpsEvent
  added : Nat
  history : List Mark

/-- A subscription between the event loop and the flag of the device. -/
structure Outbox where
  s : Subscription
  eloop : List Callback
  eventSendAllQueued : Bool

namespace Outbox

variable (t : Outbox) (e : Nat)

def setEvent (ev : Option WpsEvent) : Outbox :=
  { t with s := { t.s with event := Function.update t.s.event e ev } }

def mark (m : Mark) : Outbox :=
  { t with s := { t.s with history := t.s.history ++ [m] } }

def register (t : Outbox) (callback : Callback) : Outbox :=
  { t with eloop := Upnp.register callback t.eloop }

def cancel (t : Outbox) (callback : Callback) : Outbox :=
  { t with eloop := Upnp.cancel callback t.eloop }

def eventClean : Option Outbox := do
  let ev ← t.s.event e
  let t := if t.s.currentEvent = some e then
      { t.cancel (.eventTimeout t.s.id e) with s := { t.s with currentEvent := none } } else t
  let t := if ev.sdRegistered then t.cancel (.eventTxReady t.s.id e) else t
  let t := if ev.hread then t.cancel (.eventResponse t.s.id e) else t
  some (t.setEvent e (some { ev with sd := false, sdRegistered := false, hread := false }))

def eventDelete : Option Outbox := do
  let t ← t.eventClean e
  some (t.setEvent e none)

def eventDequeue : Option (Outbox × Option Nat) := do
  let (queue, e) ← t.s.eventQueue.dequeue
  match e with
  | none => some (t, none)
  | some e =>
    some ({ t with s := { t.s with eventQueue := queue, nQueue := t.s.nQueue - 1 } }, some e)

def eventEnqueueAtEnd : Option Outbox := do
  let queue ← t.s.eventQueue.linkToEnd e
  some { t with s := { t.s with eventQueue := queue, nQueue := t.s.nQueue + 1 } }

def eventEnqueueAtBegin : Option Outbox := do
  let queue ← t.s.eventQueue.linkBehindHead e
  some { t with s := { t.s with eventQueue := queue, nQueue := t.s.nQueue + 1 } }

def deleteQueue : Nat → Outbox → Option Outbox
  | 0, t => do
      let (t, e) ← t.eventDequeue
      if e.isNone then some t else none
  | fuel + 1, t => do
      let (t, e) ← t.eventDequeue
      match e with
      | none => some t
      | some e => do
          let t ← t.eventDelete e
          deleteQueue fuel t

def eventDeleteAll : Option Outbox := do
  let t ← deleteQueue t.s.nQueue.toNat t
  match t.s.currentEvent with
  | none => some t
  | some e => t.eventDelete e

/-- `registers` tells whether `eloop_register_timeout` succeeds. -/
def eventSendAllLater (registers : Bool) : Outbox :=
  if t.eventSendAllQueued then t
  else
    let t := { t with eventSendAllQueued := true }
    if registers then t.register .sendAllLater else t

def eventRetry (t : Outbox) (e : Nat) (doNextAddress registers : Bool) : Option Outbox := do
  let t ← t.eventClean e
  let ev ← t.s.event e
  let t := if doNextAddress then
      (t.setEvent e (some { ev with retry := ev.retry + 1 })).mark (.failed e ev.addr) else t
  let ev ← t.s.event e
  if t.s.nAddr ≤ ev.retry then
    -- the event is forgotten, not freed
    some (t.mark (.gaveUp e))
  else do
    let t ← t.eventEnqueueAtBegin e
    some (t.eventSendAllLater registers)

def sendMore (registers : Bool) : Outbox :=
  if t.s.eventQueue.head.isSome then t.eventSendAllLater registers else t

def eventTimeoutHandler (t : Outbox) (e : Nat) (registers : Bool) : Option Outbox :=
  if t.s.currentEvent = some e then t.eventRetry e true registers else none

/-- What the reader of the response reports: a reply with its code, another file, or no file. -/
inductive Response
  | reply (code : Int)
  | bogus
  | failed
  deriving DecidableEq

/-- The second component tells that the subscription is to be deleted. -/
def eventGotResponseHandler (t : Outbox) (e : Nat) (response : Response) (registers : Bool) :
    Option (Outbox × Bool) :=
  if t.s.currentEvent = some e then do
    let t := t.cancel (.eventTimeout t.s.id e)
    match response with
    | .reply code =>
      if code = 200 then do
        let t ← t.eventDelete e
        some ((t.mark (.acknowledged e)).sendMore registers, false)
      else some (t, true)
    | .bogus => do
        let t ← t.eventRetry e true registers
        some (t.sendMore registers, false)
    | .failed => some (t, true)
  else none

inductive TxReady
  | noBuffer
  | writeFails
  | noHttpread
  | written
  deriving DecidableEq

def eventSendTxReady (t : Outbox) (e : Nat) (outcome : TxReady) (registers : Bool) :
    Option Outbox := do
  let ev ← t.s.event e
  if t.s.currentEvent = some e ∧ ev.sd then
    match outcome with
    | .noBuffer => do
        let t ← t.eventRetry e false registers
        some (t.sendMore registers)
    | .writeFails => do
        let t ← t.eventRetry e true registers
        some (t.sendMore registers)
    | .noHttpread => do
        let t := t.mark (.notified e ev.addr)
        let t := if ev.sdRegistered then t.cancel (.eventTxReady t.s.id e) else t
        let t := t.setEvent e (some { ev with sdRegistered := false })
        let t ← t.eventRetry e false registers
        some (t.sendMore registers)
    | .written =>
      let t := t.mark (.notified e ev.addr)
      let t := if ev.sdRegistered then t.cancel (.eventTxReady t.s.id e) else t
      let t := t.register (.eventResponse t.s.id e)
      some (t.setEvent e (some { ev with sdRegistered := false, hread := true }))
  else none

inductive SendStart
  | noSocket
  | noNonblock
  | connectFails
  | noSockHandler
  | noTimeout
  | started
  deriving DecidableEq

/-- The second component is the return value, true for an error. -/
def eventSendStart (t : Outbox) (outcome : SendStart) (registers : Bool) :
    Option (Outbox × Bool) :=
  if t.s.nAddr ≠ 0 ∧ t.s.currentEvent = none then do
    let (t, found) ← t.eventDequeue
    let e ← found
    let ev ← t.s.event e
    let t := { t with s := { t.s with currentEvent := some e } }
    -- the list of addresses is circular
    let ev := { ev with addr := ev.retry % t.s.nAddr }
    let opened := { ev with sd := true }
    match outcome with
    | .noSocket => do
        let t ← (t.setEvent e (some ev)).eventRetry e false registers
        some (t, true)
    | .noNonblock => do
        let t ← (t.setEvent e (some opened)).eventRetry e false registers
        some (t, true)
    | .connectFails => do
        let t ← (t.setEvent e (some opened)).eventRetry e true registers
        some (t, true)
    | .noSockHandler => do
        let t ← (t.setEvent e (some opened)).eventRetry e false registers
        some (t, true)
    | .noTimeout => do
        let t := (t.register (.eventTxReady t.s.id e)).setEvent e
          (some { opened with sdRegistered := true })
        let t ← t.eventRetry e false registers
        some (t, true)
    | .started =>
      let t := (t.register (.eventTxReady t.s.id e)).setEvent e
        (some { opened with sdRegistered := true })
      some (t.register (.eventTimeout t.s.id e), false)
  else none

/-- What `event_send_all_later_handler` does for a subscription with an address. -/
def visit (t : Outbox) (outcome : SendStart) (registers : Bool) : Option (Outbox × Bool) :=
  if t.s.currentEvent = none ∧ t.s.eventQueue.head.isSome then
    t.eventSendStart outcome registers
  else some (t, false)

/-- The second component is the return value, true for an error. -/
def eventAdd (t : Outbox) (data : Bytes) (memory registers : Bool) :
    Option (Outbox × Bool) :=
  if maxEventsQueued ≤ t.s.nQueue then some (t, true)
  else if memory = false then some (t, true)
  else do
    let e := t.s.added
    let ev : WpsEvent :=
      { subscriberSequence := t.s.nextSubscriberSequence, retry := 0, addr := 0, data := data,
        sd := false, sdRegistered := false, hread := false }
    let next := t.s.nextSubscriberSequence + 1
    let next := if next = 0 then next + 1 else next
    let t := { t with s := { t.s with nextSubscriberSequence := next, added := e + 1 } }
    let t ← ((t.setEvent e (some ev)).mark (.added e)).eventEnqueueAtEnd e
    some (t.eventSendAllLater registers, false)

end Outbox

/-- What happens to a subscription between its creation and its removal. -/
inductive Occurrence
  | add (data : Bytes) (memory : Bool)
  | wake (outcome : Outbox.SendStart)
  | txReady (e : Nat) (outcome : Outbox.TxReady)
  | timeout (e : Nat)
  | response (e : Nat) (response : Outbox.Response)
  deriving DecidableEq

namespace Outbox

def occurs (t : Outbox) (occurrence : Occurrence) (registers : Bool) : Option (Outbox × Bool) :=
  match occurrence with
  | .add data memory => do
      let (t, _) ← t.eventAdd data memory registers
      some (t, false)
  | .wake outcome => do
      let t := { t with eloop := t.eloop.erase .sendAllLater, eventSendAllQueued := false }
      let (t, nerrors) ← t.visit outcome registers
      some (if nerrors then t.eventSendAllLater registers else t, false)
  | .txReady e outcome =>
    if .eventTxReady t.s.id e ∈ t.eloop then do
      let t ← t.eventSendTxReady e outcome registers
      some (t, false)
    else none
  | .timeout e =>
    if .eventTimeout t.s.id e ∈ t.eloop then do
      let t := { t with eloop := t.eloop.erase (.eventTimeout t.s.id e) }
      let t ← t.eventTimeoutHandler e registers
      some (t, false)
    else none
  | .response e response =>
    if .eventResponse t.s.id e ∈ t.eloop then t.eventGotResponseHandler e response registers
    else none

def step (t : Outbox) (input : Occurrence × Bool) : Option Outbox := do
  let (t, gone) ← t.occurs input.1 input.2
  if gone then none else some t

/-- A subscription as `subscription_start` makes it, before its first event. -/
def created (id nAddr : Nat) (uuid : Bytes) (expire : Int) : Subscription :=
  { id := id, timeoutTime := expire, nextSubscriberSequence := 0, uuid := uuid, nAddr := nAddr,
    eventQueue := .empty, nQueue := 0, currentEvent := none, event := fun _ => none, added := 0,
    history := [] }

end Outbox

end AthApps.Upnp
