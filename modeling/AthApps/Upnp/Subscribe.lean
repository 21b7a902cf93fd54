import AthApps.Http.Httpread
import AthApps.Upnp.Wakeup

/-!
# SUBSCRIBE and UNSUBSCRIBE

The two requests as texts: the lines of the header are looked at one by one, and
the end of `web_connection_parse_subscribe` decides with what they left in three
variables.  The comment there quotes the rules: a SID with NT or CALLBACK is a
bad request, and a missing or invalid NT or CALLBACK fails a precondition.  What
NT says is tested while the lines are read, whether there was an NT only where a
subscription is to start, and the urls not at all.

The answer to UNSUBSCRIBE is written into the buffer, but the end of what is to be
sent stays at its beginning.
-/

set_option autoImplicit false

namespace AthApps.Upnp

open AthApps.Lib AthApps.Http List

def uuidSize : Nat := 16

def upnpWpsDeviceEventFile : Bytes := letters "wps_event"

/-- `uuid_parse` for the bytes that are left; a hyphen may stand before each. -/
@[grind =] def uuidParse : Nat → Bytes → Option Bytes
  | 0, _ => some []
  | left + 1, text =>
    match if text.headD 0 = 45 then text.tail else text with
    | high :: low :: rest =>
      if isXdigit high && isXdigit low then
        (uuidParse left rest).map fun bytes =>
          UInt8.ofNat (digitValue high * 16 + digitValue low) :: bytes
      else none
    | _ => none

def hexByte (byte : UInt8) : Bytes := (fixedDigits 16 2 byte.toNat).map lowerDigit

@[grind =] def uuidFormat : Nat → Bytes → Bytes
  | _, [] => []
  | i, byte :: rest =>
    (if i = 4 ∨ i = 6 ∨ i = 8 ∨ i = 10 then [45] else []) ++ hexByte byte ++
      uuidFormat (i + 1) rest

/-- The lines that are ended, up to the null byte. -/
@[grind =] def endedLines : Bytes → List Bytes
  | [] => []
  | c :: rest =>
    if c = 0 then []
    else if c = 10 then [] :: endedLines rest
    else
      match endedLines rest with
      | [] => []
      | line :: lines => (c :: line) :: lines

def behind (name : String) (line : Bytes) : Option Bytes :=
  let matchLen := (letters name).length
  if equalFold (line.take matchLen) (letters name) then
    some (skipBlanks (line.drop matchLen))
  else none

/-- What a line is about. -/
inductive HeaderOption
  | nt (value : Bytes)
  | callback (urls : Bytes)
  | sid (value : Bytes)
  | other
  deriving DecidableEq

def headerOption (line : Bytes) : HeaderOption :=
  match behind "NT:" line with
  | some value => .nt value
  | none =>
    match behind "CALLBACK:" line with
    | some urls => .callback urls
    | none =>
      match behind "SID:" line with
      | some value => .sid value
      | none => .other

def headerOptions (hdr : Bytes) : List HeaderOption := (endedLines hdr).tail.map headerOption

def isEvent (value : Bytes) : Bool := (behind "upnp:event" value).isSome

def sidUuid (value : Bytes) : Option Bytes :=
  (behind "uuid:" value).bind (uuidParse uuidSize)

inductive Refusal
  | badRequest
  | preconditionFailed
  | internalServerError
  deriving DecidableEq

def Refusal.status : Refusal → Bytes
  | badRequest => letters "400 Bad request"
  | preconditionFailed => letters "412 Precondition failed"
  | internalServerError => letters "500 Internal server error"

def answer (status : Bytes) (more : List Bytes) : Bytes :=
  ([letters "HTTP/1.1 " ++ status, letters "Server: unspecified, UPnP/1.0, unspecifed",
    letters "Connection: close", letters "Content-Length: 0"] ++ more).flatMap
      (fun line => line ++ Httpread.crlf) ++ Httpread.crlf

def refuse (refusal : Refusal) : Bytes := answer refusal.status []

/-- The time of `gmtime`, with the whole year. -/
structure Date where
  wday : Fin 7
  mday : Nat
  mon : Fin 12
  year : Nat
  hour : Nat
  min : Nat
  sec : Nat

def twoDigits (number : Nat) : Bytes := (fixedDigits 10 2 number).map lowerDigit

def formatDate (date : Date) : Bytes :=
  let weekday := ["Sun", "Mon", "Tue", "Wed", "Thu", "Fri", "Sat"][date.wday]
  let month := ["Jan", "Feb", "Mar", "Apr", "May", "Jun", "Jul", "Aug", "Sep", "Oct", "Nov",
    "Dec"][date.mon]
  letters weekday ++ letters ", " ++ twoDigits date.mday ++ letters " " ++ letters month ++
    letters " " ++ (decimalDigits 10 date.year).map lowerDigit ++ letters " " ++
    twoDigits date.hour ++ letters ":" ++ twoDigits date.min ++ letters ":" ++
    twoDigits date.sec ++ letters " GMT"

def sidLine (uuid : Bytes) : Bytes := letters "SID: uuid:" ++ uuidFormat 0 uuid

def accept (uuid : Bytes) (date : Date) : Bytes :=
  answer (letters "200 OK")
    [sidLine uuid, letters "Timeout: Second-1801", letters "Date: " ++ formatDate date]

/-- What the lines leave in `got_nt`, `callback_urls` and `uuid`. -/
structure Parsed where
  gotNt : Bool
  callbackUrls : Option Bytes
  uuid : Option Bytes
  deriving DecidableEq

/-- The lines of SUBSCRIBE; `memory` tells whether there is any for a line of urls with so many
lines behind it. -/
@[grind =] def parseOptions (memory : Nat → Bool) : List HeaderOption → Parsed → Except Refusal Parsed
  | [], parsed => .ok parsed
  | .nt value :: rest, parsed =>
    if isEvent value then parseOptions memory rest { parsed with gotNt := true }
    else .error .badRequest
  | .callback urls :: rest, parsed =>
    if memory rest.length then
      parseOptions memory rest { parsed with callbackUrls := some urls }
    else .error .internalServerError
  | .sid value :: rest, parsed =>
    match sidUuid value with
    | none => .error .badRequest
    | some uuid => parseOptions memory rest { parsed with uuid := some uuid }
  | .other :: rest, parsed => parseOptions memory rest parsed

@[grind =] def parseSids : List HeaderOption → Option Bytes → Except Refusal (Option Bytes)
  | [], uuid => .ok uuid
  | .sid value :: rest, _ =>
    match sidUuid value with
    | none => .error .badRequest
    | some uuid => parseSids rest (some uuid)
  | _ :: rest, uuid => parseSids rest uuid

/-- What a request depends on besides its text: the memory for the page and the urls, what
`subscription_start` depends on, and the time. -/
structure Serving where
  page : Bool
  urls : Nat → Bool
  start : Device.Subscribe
  registers : Bool
  date : Date
  sized : start.uuid.length = uuidSize

namespace Device

def webConnectionParseSubscribe (d : Device) (serving : Serving) (filename hdr : Bytes) :
    Option (Bytes × Device) :=
  if serving.page = false then some ([], d)
  else if ¬ equalFold filename upnpWpsDeviceEventFile then some (refuse .preconditionFailed, d)
  else
    match parseOptions serving.urls (headerOptions hdr) ⟨false, none, none⟩ with
    | .error refusal => some (refuse refusal, d)
    | .ok ⟨_, some _, some _⟩ => some (refuse .badRequest, d)
    | .ok ⟨_, none, some uuid⟩ => do
        let found ← d.subscriptionFind uuid
        let after ← d.subscriptionRenew serving.start.now uuid
        match found with
        | none => some (refuse .preconditionFailed, after)
        | some i => do
            let s ← after.subscription i
            some (accept s.uuid serving.date, after)
    | .ok ⟨_, none, none⟩ => some (refuse .preconditionFailed, d)
    | .ok ⟨false, some _, none⟩ => some (refuse .preconditionFailed, d)
    | .ok ⟨true, some _, none⟩ => do
        let after ← d.subscriptionStart serving.start serving.registers
        match after.subscription d.allocated with
        | none => some (refuse .internalServerError, after)
        | some s => some (accept s.uuid serving.date, after)

/-- `web_connection_parse_unsubscribe`; after a success nothing is written, as `b` is still at the
beginning of the buffer. -/
def webConnectionParseUnsubscribeText (d : Device) (serving : Serving)
    (filename hdr : Bytes) : Option (Bytes × Device) :=
  if serving.page = false then some ([], d)
  else if ¬ equalFold filename upnpWpsDeviceEventFile then some (refuse .preconditionFailed, d)
  else
    match parseSids (headerOptions hdr) none with
    | .error refusal => some (refuse refusal, d)
    | .ok none => some (refuse .preconditionFailed, d)
    | .ok (some uuid) => do
        let after ← d.webConnectionParseUnsubscribe uuid
        some ([], after)

end Device

theorem hexByte_digits (byte : UInt8) :
    hexByte byte = [lowerDigit (byte.toNat / 16), lowerDigit (byte.toNat % 16)] := by
  have small : byte.toNat / 16 < 16 := by
    have bound := byte.toNat_lt
    omega
  simp [hexByte, fixedDigits, Nat.mod_eq_of_lt small]

theorem lowerDigit_hex : ∀ digit < 16, isXdigit (lowerDigit digit) = true ∧
    lowerDigit digit ≠ 45 ∧ lowerDigit digit ≠ 13 ∧ lowerDigit digit ≠ 10 := by
  decide

theorem uuidParse_byte (left : Nat) (hyphen : Bool) (byte : UInt8) (rest : Bytes) :
    uuidParse (left + 1) ((if hyphen then [45] else []) ++ hexByte byte ++ rest) =
      (uuidParse left rest).map fun bytes => byte :: bytes := by
  have high : byte.toNat / 16 < 16 := by
    have bound := byte.toNat_lt
    omega
  have low : byte.toNat % 16 < 16 := Nat.mod_lt _ (by decide)
  have same : UInt8.ofNat (byte.toNat / 16 * 16 + byte.toNat % 16) = byte := by
    rw [Nat.div_add_mod']
    exact UInt8.ofNat_toNat
  have read : uuidParse (left + 1) (hexByte byte ++ rest) =
      (uuidParse left rest).map fun bytes => byte :: bytes := by
    rw [hexByte_digits, uuidParse]
    simp [lowerDigit_hex _ high, lowerDigit_hex _ low, digitValue_lowerDigit _ high,
      digitValue_lowerDigit _ low, same]
  cases hyphen with
  | false => exact read
  | true =>
    rw [← read, hexByte_digits]
    simp [uuidParse, lowerDigit_hex _ high]

theorem uuidParse_format (i : Nat) (uuid rest : Bytes) :
    uuidParse uuid.length (uuidFormat i uuid ++ rest) = some uuid := by
  induction uuid generalizing i with
  | nil => rfl
  | cons byte others ih =>
    have here := uuidParse_byte others.length (decide (i = 4 ∨ i = 6 ∨ i = 8 ∨ i = 10)) byte
      (uuidFormat (i + 1) others ++ rest)
    simp only [decide_eq_true_eq, ih, Option.map_some] at here
    rw [uuidFormat, length_cons, append_assoc _ _ rest]
    exact here

theorem uuidParse_length {left : Nat} {text uuid : Bytes}
    (parsed : uuidParse left text = some uuid) : uuid.length = left := by
  induction left generalizing text uuid with
  | zero =>
    cases parsed
    rfl
  | succ left ih =>
    rw [uuidParse] at parsed
    split at parsed
    · split at parsed
      · obtain ⟨bytes, read, same⟩ := Option.map_eq_some_iff.mp parsed
        rw [← same, length_cons, ih read]
      · cases parsed
    · cases parsed

/-- Bytes that neither end a line nor a text. -/
def Plain (line : Bytes) : Prop := ∀ c ∈ line, c ≠ 0 ∧ c ≠ 10 ∧ c ≠ 13

instance (line : Bytes) : Decidable (Plain line) := List.decidableBAll _ _

/-- One response: a status line, other lines and an empty line at the end. -/
def Complete (bytes : Bytes) : Prop :=
  ∃ first fields, bytes =
      (first :: fields).flatMap (fun line => line ++ Httpread.crlf) ++ Httpread.crlf ∧
    letters "HTTP/1.1 " <+: first ∧ ∀ line ∈ first :: fields, line ≠ [] ∧ Plain line

theorem Plain.append {front back : Bytes} (first : Plain front) (second : Plain back) :
    Plain (front ++ back) := by
  intro c member
  rcases mem_append.mp member with member | member
  · exact first c member
  · exact second c member

theorem plain_digits {digits : List Nat} (small : ∀ digit ∈ digits, digit < 16) :
    Plain (digits.map lowerDigit) := by
  have each : ∀ digit < 16, lowerDigit digit ≠ 0 ∧ lowerDigit digit ≠ 10 ∧
      lowerDigit digit ≠ 13 := by decide
  intro c member
  obtain ⟨digit, listed, rfl⟩ := mem_map.mp member
  exact each digit (small digit listed)

theorem plain_uuidFormat (i : Nat) (uuid : Bytes) : Plain (uuidFormat i uuid) := by
  induction uuid generalizing i with
  | nil => exact fun _ member => by cases member
  | cons byte rest ih =>
    rw [uuidFormat]
    refine Plain.append (Plain.append ?_ ?_) (ih _)
    · split <;> decide
    · exact plain_digits (fixedDigits_lt (by decide) _ _)

theorem plain_twoDigits (number : Nat) : Plain (twoDigits number) :=
  plain_digits fun digit member =>
    Nat.lt_trans (fixedDigits_lt (by decide) _ _ digit member) (by decide)

variable (uuid : Bytes) (date : Date)

theorem plain_formatDate : Plain (formatDate date) := by
  have weekdays : ∀ wday : Fin 7, Plain (letters
      ["Sun", "Mon", "Tue", "Wed", "Thu", "Fri", "Sat"][wday]) := by decide
  have months : ∀ mon : Fin 12, Plain (letters
      ["Jan", "Feb", "Mar", "Apr", "May", "Jun", "Jul", "Aug", "Sep", "Oct", "Nov",
        "Dec"][mon]) := by decide
  have year : Plain ((decimalDigits 10 date.year).map lowerDigit) :=
    plain_digits fun digit member => Nat.lt_trans (decimalDigits_lt _ _ digit member) (by decide)
  unfold formatDate
  refine Plain.append (Plain.append (Plain.append (Plain.append (Plain.append (Plain.append
    (Plain.append (Plain.append (Plain.append (Plain.append (Plain.append (Plain.append
    (Plain.append (weekdays _) ?_) (plain_twoDigits _)) ?_) (months _)) ?_) year) ?_)
    (plain_twoDigits _)) ?_) (plain_twoDigits _)) ?_) (plain_twoDigits _)) ?_ <;> decide

theorem answer_complete {status : Bytes} {more : List Bytes} (plain : Plain status)
    (lines : ∀ line ∈ more, line ≠ [] ∧ Plain line) : Complete (answer status more) := by
  refine ⟨letters "HTTP/1.1 " ++ status, [letters "Server: unspecified, UPnP/1.0, unspecifed",
    letters "Connection: close", letters "Content-Length: 0"] ++ more, rfl,
    prefix_append _ _, ?_⟩
  intro line member
  rcases mem_cons.mp member with rfl | member
  · exact ⟨by simp [letters], Plain.append (by decide) plain⟩
  rcases mem_append.mp member with member | member
  · have fixed : ∀ line ∈ [letters "Server: unspecified, UPnP/1.0, unspecifed",
        letters "Connection: close", letters "Content-Length: 0"], line ≠ [] ∧ Plain line := by
      decide
    exact fixed line member
  · exact lines line member

theorem refuse_complete (refusal : Refusal) : Complete (refuse refusal) := by
  refine answer_complete ?_ (fun _ member => by cases member)
  cases refusal <;> decide

theorem accept_lines :
    ∀ line ∈ [sidLine uuid, letters "Timeout: Second-1801", letters "Date: " ++ formatDate date],
      line ≠ [] ∧ Plain line := by
  intro line member
  simp only [mem_cons, not_mem_nil, or_false] at member
  rcases member with rfl | rfl | rfl
  · exact ⟨by simp [sidLine, letters], Plain.append (by decide) (plain_uuidFormat 0 uuid)⟩
  · decide
  · exact ⟨by simp [letters], Plain.append (by decide) (plain_formatDate date)⟩

theorem accept_complete : Complete (accept uuid date) :=
  answer_complete (by decide) (accept_lines uuid date)

theorem not_complete_nil : ¬ Complete [] := by
  rintro ⟨first, fields, same, -, -⟩
  simp [Httpread.crlf] at same

theorem endedLines_line {line : Bytes} (plain : Plain line) (rest : Bytes) :
    endedLines (line ++ Httpread.crlf ++ rest) = (line ++ [13]) :: endedLines rest := by
  induction line with
  | nil => simp [Httpread.crlf, endedLines]
  | cons c others ih =>
    obtain ⟨null, ended, -⟩ := plain c mem_cons_self
    have later := ih fun c member => plain c (mem_cons_of_mem _ member)
    show endedLines (c :: (others ++ Httpread.crlf ++ rest)) = _
    rw [endedLines, if_neg null, if_neg ended, later]
    rfl

theorem endedLines_lines {lines : List Bytes} (plain : ∀ line ∈ lines, Plain line) :
    endedLines (lines.flatMap (fun line => line ++ Httpread.crlf) ++ Httpread.crlf) =
      lines.map (fun line => line ++ [13]) ++ [[13]] := by
  induction lines with
  | nil => rfl
  | cons line others ih =>
    rw [flatMap_cons, append_assoc, endedLines_line (plain line mem_cons_self),
      ih fun line member => plain line (mem_cons_of_mem _ member)]
    rfl

theorem behind_append (name : String) (rest : Bytes) :
    behind name (letters name ++ rest) = some (skipBlanks rest) := by
  simp [behind, equalFold]

theorem behind_none {name : String} {first c : UInt8} {others line : Bytes}
    (named : letters name = first :: others) (apart : toLower c ≠ toLower first) :
    behind name (c :: line) = none := by
  simp [behind, named, equalFold, apart]

theorem headerOption_sid (rest : Bytes) :
    headerOption (letters "SID:" ++ rest) = .sid (skipBlanks rest) := by
  have nt : behind "NT:" (letters "SID:" ++ rest) = none :=
    @behind_none "NT:" 78 83 _ (letters "ID:" ++ rest) rfl (by decide)
  have callback : behind "CALLBACK:" (letters "SID:" ++ rest) = none :=
    @behind_none "CALLBACK:" 67 83 _ (letters "ID:" ++ rest) rfl (by decide)
  rw [headerOption, nt, callback, behind_append]

theorem headerOption_date (rest : Bytes) :
    headerOption (letters "Date: " ++ rest) = .other := by
  have nt : behind "NT:" (letters "Date: " ++ rest) = none :=
    @behind_none "NT:" 78 68 _ (letters "ate: " ++ rest) rfl (by decide)
  have callback : behind "CALLBACK:" (letters "Date: " ++ rest) = none :=
    @behind_none "CALLBACK:" 67 68 _ (letters "ate: " ++ rest) rfl (by decide)
  have sid : behind "SID:" (letters "Date: " ++ rest) = none :=
    @behind_none "SID:" 83 68 _ (letters "ate: " ++ rest) rfl (by decide)
  rw [headerOption, nt, callback, sid]

def sids (options : List HeaderOption) : List Bytes :=
  options.filterMap fun option =>
    match option with
    | .sid value => some value
    | _ => none

theorem sids_accept : sids (headerOptions (accept uuid date)) =
      [letters "uuid:" ++ uuidFormat 0 uuid ++ [13]] := by
  have plain : ∀ line ∈ [letters "HTTP/1.1 " ++ letters "200 OK",
      letters "Server: unspecified, UPnP/1.0, unspecifed", letters "Connection: close",
      letters "Content-Length: 0"] ++ [sidLine uuid, letters "Timeout: Second-1801",
        letters "Date: " ++ formatDate date], Plain line := by
    intro line member
    rcases mem_append.mp member with member | member
    · have fixed : ∀ line ∈ [letters "HTTP/1.1 " ++ letters "200 OK",
          letters "Server: unspecified, UPnP/1.0, unspecifed", letters "Connection: close",
          letters "Content-Length: 0"], Plain line := by decide
      exact fixed line member
    · exact (accept_lines uuid date line member).2
  have sid : headerOption (sidLine uuid ++ [13]) =
      .sid (letters "uuid:" ++ uuidFormat 0 uuid ++ [13]) := by
    have parts : sidLine uuid ++ [13] =
        letters "SID:" ++ (letters " uuid:" ++ uuidFormat 0 uuid ++ [13]) := by
      rw [sidLine, ← append_assoc, ← append_assoc]
      rfl
    rw [parts, headerOption_sid]
    rfl
  have dated : headerOption (letters "Date: " ++ (formatDate date ++ [13])) = .other :=
    headerOption_date _
  have fixed : [letters "Server: unspecified, UPnP/1.0, unspecifed", letters "Connection: close",
      letters "Content-Length: 0"].map (fun line => headerOption (line ++ [13])) =
        [.other, .other, .other] := by decide
  have timeout : headerOption (letters "Timeout: Second-1801" ++ [13]) = .other := by decide
  have last : headerOption [13] = .other := by decide
  rw [headerOptions, accept, answer, endedLines_lines plain]
  simp only [map_cons, map_nil, List.cons.injEq, and_true] at fixed
  simp [sids, sid, dated, fixed, timeout, last]

theorem sidUuid_format {uuid : Bytes} (sized : uuid.length = uuidSize) :
    sidUuid (letters "uuid:" ++ uuidFormat 0 uuid ++ [13]) = some uuid := by
  have unblank : skipBlanks (uuidFormat 0 uuid ++ [13]) = uuidFormat 0 uuid ++ [13] := by
    cases uuid with
    | nil => cases sized
    | cons byte rest =>
      have high : byte.toNat / 16 < 16 := by
        have bound := byte.toNat_lt
        omega
      have digits : ∀ digit < 16, lowerDigit digit ≠ 32 ∧ lowerDigit digit ≠ 9 := by decide
      simp [uuidFormat, hexByte_digits, skipBlanks, digits _ high]
  rw [sidUuid, append_assoc, behind_append, unblank, Option.bind_some, ← sized, uuidParse_format]

end AthApps.Upnp
