import AthApps.Http.Httpread

/-!
# Control requests

`web_connection_parse_post` takes the name of an action from the `SOAPAction`
line of the header and compares it with the names it knows, but only as many
characters as the request gives.  The first name that starts with what was
given is the one that is performed.

The branches of the handler differ in what they fetch from the document, in
the callback and in the variables they set; `Handling` has the differences.
The document, base64 and the callbacks are parameters.
-/

set_option autoImplicit false

namespace AthApps.Upnp

open AthApps.Lib Option List

def startsFold (start text : Bytes) : Bool :=
  decide (start.length ≤ text.length) && equalFold start (text.take start.length)

def searchLine (tag : Bytes) : Bool → Bytes → Option Bytes
  | _, [] => none
  | lineStart, c :: rest =>
    if lineStart && startsFold tag (c :: rest) then
      some (Http.skipBlanks ((c :: rest).drop tag.length))
    else searchLine tag (c == 10) rest

def httpreadHdrLineGet (tag hdr : Bytes) : Option Bytes := searchLine tag false hdr

inductive Action where
  | getDeviceInfo
  | putMessage
  | getApSettings
  | setApSettings
  | delApSettings
  | getStaSettings
  | setStaSettings
  | delStaSettings
  | putWlanResponse
  | setSelectedRegistrar
  | rebootAp
  | resetAp
  | rebootSta
  | resetSta
  deriving DecidableEq

def actionNames : List (Action × Bytes) :=
  [(.getDeviceInfo, letters "GetDeviceInfo"), (.putMessage, letters "PutMessage"),
    (.getApSettings, letters "GetAPSettings"), (.setApSettings, letters "SetAPSettings"),
    (.delApSettings, letters "DelAPSettings"), (.getStaSettings, letters "GetSTASettings"),
    (.setStaSettings, letters "SetSTASettings"), (.delStaSettings, letters "DelSTASettings"),
    (.putWlanResponse, letters "PutWLANResponse"),
    (.setSelectedRegistrar, letters "SetSelectedRegistrar"), (.rebootAp, letters "RebootAP"),
    (.resetAp, letters "ResetAP"), (.rebootSta, letters "RebootSTA"),
    (.resetSta, letters "ResetSTA")]

inductive WpsVar where
  | deviceinfo
  | inmessage
  | outmessage
  | message
  | apsettings
  | stasettings
  | wlaneventtype
  | wlaneventmac
  deriving DecidableEq

/-- Where a variable gets its value from: an item of the document, the encoded answer of the
callback, or a null pointer. -/
inductive Source where
  | item (n : Nat)
  | answer
  | null

structure Handling where
  /-- The items of the document; the first one is decoded. -/
  items : List Bytes
  /-- The reply code when the callback is not installed, where this is tested. -/
  missing : Option Nat
  encodes : Bool
  sets : List (WpsVar × Source)

def Handling.store (item : String) (var : WpsVar) : Handling :=
  ⟨[letters item], some 500, false, [(var, .item 0)]⟩

def Action.handling : Action → Handling
  | .getDeviceInfo => ⟨[], none, true, [(.deviceinfo, .answer)]⟩
  | .putMessage =>
    ⟨[letters "NewInMessage"], some 401, true, [(.inmessage, .item 0), (.outmessage, .answer)]⟩
  | .getApSettings =>
    ⟨[letters "NewMessage"], some 401, true, [(.message, .item 0), (.apsettings, .answer)]⟩
  | .setApSettings => .store "NewAPSettings" .apsettings
  | .delApSettings => .store "NewAPSettings" .apsettings
  -- the answer is not encoded, and the variable gets a pointer that is still null
  | .getStaSettings =>
    ⟨[letters "NewMessage"], some 500, false, [(.message, .item 0), (.stasettings, .null)]⟩
  | .setStaSettings => .store "NewSTASettings" .stasettings
  | .delStaSettings => .store "NewSTASettings" .stasettings
  | .putWlanResponse =>
    ⟨[letters "NewMessage", letters "NewWLANEventType", letters "NewWLANEventMAC"], some 500,
      false, [(.message, .item 0), (.wlaneventtype, .item 1), (.wlaneventmac, .item 2)]⟩
  | .setSelectedRegistrar => .store "NewMessage" .message
  | .rebootAp => .store "NewAPSettings" .apsettings
  | .resetAp => .store "NewMessage" .message
  | .rebootSta => .store "NewSTASettings" .stasettings
  | .resetSta => .store "NewMessage" .message

/-- `upnp_get_first_document_item`, base64, and the callbacks of the context.  A callback is
given what was decoded, and for a response to a WLAN event its type. -/
structure Services where
  item : Bytes → Bytes → Option Bytes
  decode : Bytes → Option Bytes
  encode : Bytes → Option Bytes
  installed : Action → Bool
  callback : Action → Bytes → Option Int → Option Bytes

/-- A call of a callback or a change of a variable, with the action it is part of. -/
inductive Effect where
  | called (action : Action) (input : Bytes) (evType : Option Int)
  | setVar (action : Action) (var : WpsVar) (value : Bytes)
  deriving DecidableEq

def Effect.action : Effect → Action
  | .called action _ _ => action
  | .setVar action _ _ => action

variable (services : Services) (data : Bytes) (action : Action)

def fetchItems : List Bytes → Except Nat (List Bytes × Bytes)
  | [] => .ok ([], [])
  | name :: others =>
    match services.item data name with
    | none => .error 600
    | some first =>
      match services.decode first with
      | none => .error 603
      | some decoded =>
        match others.mapM (services.item data) with
        | none => .error 600
        | some rest => .ok (first :: rest, decoded)

/-- `upnp_wps_device_set_var`; a null pointer counts as the empty string. -/
def Source.value (items : List Bytes) (answer : Bytes) : Source → Bytes
  | .item n => items.getD n []
  | .answer => answer
  | .null => []

def Handling.setVars (handling : Handling) (action : Action) (items : List Bytes)
    (answer : Bytes) : List Effect :=
  handling.sets.map fun set => .setVar action set.1 (set.2.value items answer)

def Action.perform : Nat × List Effect :=
  let handling := action.handling
  match fetchItems services data handling.items with
  | .error code => (code, [])
  | .ok (items, decoded) =>
    match handling.missing, services.installed action with
    | some code, false => (code, [])
    | _, _ =>
      let evType := items[1]?.map Http.atol
      let call := Effect.called action decoded evType
      match services.callback action decoded evType with
      | none => (500, [call])
      | some raw =>
        if handling.encodes then
          match services.encode raw with
          | none => (603, [call])
          | some answer => (200, call :: handling.setVars action items answer)
        else (200, call :: handling.setVars action items [])

def upnpWpsDeviceControlFile : Bytes := letters "wps_control"

def serviceUrn : Bytes := letters "urn:schemas-wifialliance-org:service:WFAWLANConfig:"

def expect (character : UInt8) : Bytes → Option Bytes
  | [] => none
  | c :: rest => if c = character then some rest else none

/-- What is between the sharp and the closing quote. -/
def soapAction (hdr : Bytes) : Option Bytes := do
  let b ← httpreadHdrLineGet (letters "SOAPAction:") hdr
  let b ← expect 34 b
  let b ← if startsFold serviceUrn b then some (b.drop serviceUrn.length) else none
  let b ← expect 35 (b.dropWhile fun c => Http.isGraph c && c != 35)
  let isAction := fun c => Http.isGraph c && c != 34
  let _ ← expect 34 (b.dropWhile isAction)
  return b.takeWhile isAction

def selectAction (text : Bytes) : Option Action :=
  (actionNames.find? fun entry => startsFold text entry.2).map Prod.fst

def webConnectionParsePost (data filename hdr : Bytes) : Nat × List Effect :=
  if equalFold filename upnpWpsDeviceControlFile = false then (401, [])
  else
    match (soapAction hdr).bind selectAction with
    | none => (401, [])
    | some action => action.perform services data

def Names (hdr : Bytes) (action : Action) : Prop :=
  ∃ text name, soapAction hdr = some text ∧ (action, name) ∈ actionNames ∧
    equalFold text name = true

/-- Effects come from the action that is named, and a request that names none is turned down
as an invalid action. -/
structure OnlyNamed (filename hdr : Bytes) : Prop where
  effects : ∀ services data,
    ∀ effect ∈ (webConnectionParsePost services data filename hdr).2, Names hdr effect.action
  invalid : (∀ action, ¬ Names hdr action) →
    ∀ services data, webConnectionParsePost services data filename hdr = (401, [])

def Abbreviates (text : Bytes) : Prop :=
  ∃ action name, (action, name) ∈ actionNames ∧ startsFold text name = true ∧
    text.length < name.length

instance (text : Bytes) : Decidable (Abbreviates text) :=
  decidable_of_iff
    (actionNames.any fun entry => startsFold text entry.2 && text.length < entry.2.length) (by
    simp [Abbreviates])

theorem Action.perform_effects :
    ∀ effect ∈ (action.perform services data).2, effect.action = action := by
  intro effect met
  unfold Action.perform at met
  simp only at met
  split at met
  · cases met
  · split at met
    · cases met
    · have sets : ∀ items answer, ∀ effect ∈ action.handling.setVars action items answer,
          effect.action = action := by
        intro items answer effect met
        obtain ⟨set, _, rfl⟩ := mem_map.mp met
        rfl
      split at met
      · rw [mem_singleton.mp met]
        rfl
      · split at met
        · split at met
          · rw [mem_singleton.mp met]
            rfl
          · rcases mem_cons.mp met with rfl | set
            · rfl
            · exact sets _ _ effect set
        · rcases mem_cons.mp met with rfl | set
          · rfl
          · exact sets _ _ effect set

def failing : Services where
  item _ _ := none
  decode _ := none
  encode _ := none
  installed _ := false
  callback _ _ _ := none

theorem Action.perform_failing : action.perform failing [] ≠ (401, []) := by
  cases action <;> decide

theorem actionNames_apart : ∀ first ∈ actionNames, ∀ second ∈ actionNames,
    startsFold first.2 second.2 = true → first.2.length = second.2.length := by
  decide

theorem startsFold_iff (start text : Bytes) :
    startsFold start text = true ↔
      start.length ≤ text.length ∧ start.map toLower = (text.take start.length).map toLower := by
  simp [startsFold, equalFold]

theorem equalFold_iff (left right : Bytes) :
    equalFold left right = true ↔ left.map toLower = right.map toLower := by
  simp [equalFold]

theorem equalFold_length {left right : Bytes} (same : equalFold left right = true) :
    left.length = right.length := by
  have lengths := congrArg List.length ((equalFold_iff left right).mp same)
  simpa using lengths

variable {text name : Bytes}

theorem equalFold_of_starts (starts : startsFold text name = true)
    (complete : ¬ text.length < name.length) : equalFold text name = true := by
  obtain ⟨short, same⟩ := (startsFold_iff text name).mp starts
  rw [take_of_length_le (Nat.not_lt.mp complete)] at same
  exact (equalFold_iff text name).mpr same

theorem not_names_of_abbreviates {hdr text : Bytes} (found : soapAction hdr = some text)
    (abbreviates : Abbreviates text) (action : Action) : ¬ Names hdr action := by
  rintro ⟨other, name, found', member, same⟩
  obtain rfl : text = other := some.inj (found.symm.trans found')
  obtain ⟨longer, long, long_member, starts, short⟩ := abbreviates
  have size := equalFold_length same
  obtain ⟨_, start⟩ := (startsFold_iff _ _).mp starts
  have begins : startsFold name long = true := by
    rw [startsFold_iff, ← size, ← (equalFold_iff _ _).mp same]
    exact ⟨Nat.le_of_lt short, start⟩
  have lengths := actionNames_apart _ member _ long_member begins
  simp only at lengths
  omega

theorem selectAction_eq_some {action : Action} (selected : selectAction text = some action) :
    ∃ name, (action, name) ∈ actionNames ∧ startsFold text name = true := by
  obtain ⟨⟨found, name⟩, search, rfl⟩ := map_eq_some_iff.mp selected
  have starts := find?_some search
  exact ⟨name, mem_of_find?_eq_some search, starts⟩

theorem exists_selectAction {action : Action} (member : (action, name) ∈ actionNames)
    (starts : startsFold text name = true) : ∃ selected, selectAction text = some selected := by
  have some : (actionNames.find? fun entry => startsFold text entry.2).isSome = true :=
    find?_isSome.mpr ⟨_, member, starts⟩
  obtain ⟨entry, search⟩ := isSome_iff_exists.mp some
  exact ⟨entry.1, by rw [selectAction, search]; rfl⟩

/-- Only complete names act exactly if the request, when it is for the control file, gives no
abbreviation of a name. -/
theorem onlyNamed_iff (filename hdr : Bytes) :
    OnlyNamed filename hdr ↔ (equalFold filename upnpWpsDeviceControlFile = true →
        ∀ text, soapAction hdr = some text → ¬ Abbreviates text) := by
  constructor
  · intro only control text found abbreviates
    obtain ⟨_, name, member, starts, _⟩ := id abbreviates
    obtain ⟨selected, select⟩ := exists_selectAction member starts
    have turned := only.invalid (not_names_of_abbreviates found abbreviates) failing []
    rw [webConnectionParsePost, if_neg (by simp [control]), found, bind_some, select]
      at turned
    exact selected.perform_failing turned
  · intro complete
    have named : ∀ text action, equalFold filename upnpWpsDeviceControlFile = true →
        soapAction hdr = some text → selectAction text = some action → Names hdr action := by
      intro text action control found selected
      obtain ⟨name, member, starts⟩ := selectAction_eq_some selected
      exact ⟨text, name, found, member, equalFold_of_starts starts fun short =>
        complete control text found ⟨action, name, member, starts, short⟩⟩
    have cases : ∀ services data, webConnectionParsePost services data filename hdr = (401, []) ∨
          ∃ action, Names hdr action ∧
            webConnectionParsePost services data filename hdr = action.perform services data := by
      intro services data
      unfold webConnectionParsePost
      split
      · exact .inl rfl
      next control =>
        split
        · exact .inl rfl
        next action select =>
          obtain ⟨text, found, selected⟩ := bind_eq_some_iff.mp select
          exact .inr ⟨action, named text action (by simpa using control) found selected, rfl⟩
    constructor
    · intro services data effect met
      rcases cases services data with none | ⟨action, names, performs⟩
      · rw [none] at met
        cases met
      · rw [performs] at met
        rw [action.perform_effects services data effect met]
        exact names
    · intro nameless services data
      rcases cases services data with none | ⟨action, names, _⟩
      · exact none
      · exact absurd names (nameless action)

def controlRequest (text : String) : Bytes :=
  letters "POST /wps_control HTTP/1.1\r\nSOAPAction: \"urn:schemas-wifialliance-org:service:" ++
    letters "WFAWLANConfig:1#" ++ letters text ++ letters "\"\r\n\r\n"

def succeeding : Services where
  item _ name := some name
  decode text := some text
  encode text := some text
  installed _ := true
  callback _ _ _ := some []

/-- The empty text asks for the device info, and "res" resets the access point. -/
theorem abbreviations_act : (¬ OnlyNamed upnpWpsDeviceControlFile (controlRequest "")) ∧
      Effect.called .resetAp (letters "NewMessage") none ∈
        (webConnectionParsePost succeeding [] upnpWpsDeviceControlFile
          (controlRequest "res")).2 := by
  constructor
  · intro only
    have turned := only.invalid (@not_names_of_abbreviates (controlRequest "") []
      (by decide) (by decide)) failing []
    exact absurd turned (by decide)
  · decide

end AthApps.Upnp
