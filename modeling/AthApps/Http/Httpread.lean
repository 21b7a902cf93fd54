import AthApps.Lib.Text
import AthApps.Lib.Trace

/-!
# Reading a file over HTTP

`httpread.c` reads a message from a socket, at most 1024 bytes in a call of its
handler, and calls the application once the file is there or has failed.  The
body is all of the rest, or as long as the header says, or comes in chunks;
the handler keeps its place between two reads in the handle.

`int` and `long` have 32 bits.  Where the source leaves the range of `int`,
copies a negative number of bytes or looks in front of a buffer, nothing is
said about what it does.  The list `body` is the first `body_nbytes` bytes of
the buffer; what is moved there with one `memcpy` is moved byte by byte here
(`bodyLoop_memcpy`).
-/

set_option autoImplicit false

namespace AthApps.Http

open AthApps.Lib

def httpreadReadbufSize : Nat := 1024

def httpreadHeaderMaxSize : Nat := 4096

def httpreadBodybufDelta : Nat := 4096

def intMax : Int := 2147483647

def isGraph (c : UInt8) : Bool := 33 ≤ c && c ≤ 126

def isDigit (c : UInt8) : Bool := digitValue c < 10

def isXdigit (c : UInt8) : Bool := digitValue c < 16

/-- Both words end at the same place, with no difference but case before it. -/
def wordEq : Bytes → Bytes → Bool
  | [], s2 => !isGraph (s2.headD 0)
  | c1 :: _, [] => !isGraph c1
  | c1 :: rest1, c2 :: rest2 =>
    if !isGraph c1 || !isGraph c2 || toLower c1 != toLower c2 then !isGraph c1 && !isGraph c2
    else wordEq rest1 rest2

def skipWord (text : Bytes) : Bytes := text.dropWhile isGraph

def skipBlanks (text : Bytes) : Bytes := text.dropWhile fun c => c == 32 || c == 9

/-- To the start of the next line, or to a null byte. -/
def skipLine : Bytes → Bytes
  | [] => []
  | c :: rest => if c = 0 then c :: rest else if c = 10 then rest else skipLine rest

/-- `atol` of a text that starts with a digit; `long` is as long as `int`. -/
def atol (text : Bytes) : Int :=
  min (numeralValue 10 0 ((text.takeWhile isDigit).map digitValue)) intMax

/-- `strtoul` lets a hexadecimal number begin with `0x`. -/
def skipHexPrefix : Bytes → Bytes
  | c0 :: c1 :: rest =>
    if c0 = 48 ∧ (c1 = 88 ∨ c1 = 120) ∧ isXdigit (rest.headD 0) then rest else c0 :: c1 :: rest
  | text => text

/-- `strtoul` to the base 16, of a text that starts with a digit, stored in an `int`. -/
def strtoul (text : Bytes) : Int :=
  let digits := (skipHexPrefix text).takeWhile isXdigit
  let value := min (numeralValue 16 0 (digits.map digitValue)) (2 ^ 32 - 1)
  if value < 2 ^ 31 then value else value - 2 ^ 32

inductive HdrType where
  | unknown
  | reply
  | get
  | head
  | post
  | put
  | delete
  | trace
  | connect
  | notify
  | mSearch
  | mPost
  | subscribe
  | unsubscribe
  deriving DecidableEq

inductive TrailerState where
  | lineBegin
  | emptyCr
  | nonempty
  | nonemptyCr
  deriving DecidableEq

structure Httpread where
  maxBytes : Int
  gotHdr : Bool
  hdr : Bytes
  hdrType : HdrType
  version : Nat
  replyCode : Int
  gotContentLength : Bool
  contentLength : Int
  chunked : Bool
  uri : Bytes
  gotBody : Bool
  body : Bytes
  bodyAllocNbytes : Int
  inChunkData : Bool
  chunkStart : Nat
  chunkSize : Int
  inTrailer : Bool
  trailerState : TrailerState
  deriving DecidableEq

def httpreadCreate (maxBytes : Int) : Httpread where
  maxBytes := maxBytes
  gotHdr := false
  hdr := []
  hdrType := .unknown
  version := 0
  replyCode := 0
  gotContentLength := false
  contentLength := 0
  chunked := false
  uri := []
  gotBody := false
  body := []
  bodyAllocNbytes := 0
  inChunkData := false
  chunkStart := 0
  chunkSize := 0
  inTrailer := false
  trailerState := .lineBegin

namespace Httpread

def optionAnalyze (line : Bytes) (h : Httpread) : Option Httpread :=
  let value := skipBlanks (skipWord line)
  if wordEq line (letters "CONTENT-LENGTH:") then
    if isDigit (value.headD 0) then
      some { h with contentLength := atol value, gotContentLength := true }
    else none
  else if wordEq line (letters "TRANSFER_ENCODING:") ∨
      wordEq line (letters "TRANSFER-ENCODING:") then
    if wordEq value (letters "CHUNKED") then some { h with chunked := true, inChunkData := false }
    else some h
  else some h

/-- The lines after the first.  A line that is looked at is not empty, so `fuel` may be the
number of bytes. -/
def optionLines : Nat → Bytes → Httpread → Option Httpread
  | 0, _, _ => none
  | fuel + 1, text, h =>
    if text.headD 0 = 10 ∨ (text.headD 0 = 13 ∧ text.tail.headD 0 = 10) then some h
    else if !isGraph (text.headD 0) then none
    else (optionAnalyze text h).bind fun h => optionLines fuel (skipLine text) h

def methods : List (Bytes × HdrType) :=
  [(letters "GET", .get), (letters "HEAD", .head), (letters "POST", .post),
    (letters "PUT", .put), (letters "DELETE", .delete), (letters "TRACE", .trace),
    (letters "CONNECT", .connect), (letters "NOTIFY", .notify),
    (letters "M-SEARCH", .mSearch), (letters "M-POST", .mPost),
    (letters "SUBSCRIBE", .subscribe), (letters "UNSUBSCRIBE", .unsubscribe)]

variable (text : Bytes) (h : Httpread)

def methodType : HdrType :=
  ((methods.find? fun method => wordEq text method.1).map Prod.snd).getD .unknown

/-- Changes `%<hex><hex>` into the value it stands for. -/
def translateUri : Bytes → Bytes
  | 37 :: high :: low :: rest =>
    if isXdigit high && isXdigit low then
      UInt8.ofNat (digitValue high * 16 + digitValue low) :: translateUri rest
    else 37 :: translateUri (high :: low :: rest)
  | c :: rest => c :: translateUri rest
  | [] => []

/-- The text behind `HTTP/` names a version from 1.1 on. -/
def isVersion1 : Bool :=
  text.headD 0 == 49 && text.tail.headD 0 == 46 && isDigit (text.tail.tail.headD 0) &&
    text.tail.tail.headD 0 != 48

def withVersion : Httpread :=
  if isVersion1 text then { h with version := 1 } else h

def analyzeReply : Option Httpread :=
  let h := withVersion (text.drop 5) { h with hdrType := .reply }
  let code := skipBlanks (skipWord (text.drop 5))
  if isDigit (code.headD 0) then some { h with replyCode := atol code } else none

def analyzeRequest : Httpread :=
  let rawuri := skipBlanks (skipWord text)
  let h := { h with
    hdrType := methodType text
    uri := translateUri (rawuri.takeWhile isGraph) }
  let rest := skipBlanks (skipWord rawuri)
  if (letters "HTTP/").isPrefixOf rest then withVersion (rest.drop 5) h else h

def limitBody : Httpread :=
  let h := if h.chunked then { h with gotContentLength := false } else h
  match h.hdrType with
  | .reply => if h.replyCode ≠ 200 then { h with maxBytes := 0 } else h
  | .get | .head =>
    if !h.chunked && !h.gotContentLength then { h with maxBytes := 0 } else h
  | _ => h

def hdrAnalyze : Option Httpread :=
  if !isGraph (h.hdr.headD 0) then none
  else
    let first :=
      if (letters "HTTP/").isPrefixOf h.hdr then analyzeReply h.hdr h
      else some (analyzeRequest h.hdr h)
    first.bind fun h => (optionLines (h.hdr.length + 1) (skipLine h.hdr) h).map limitBody

def crlf : Bytes := [13, 10]

inductive Collected where
  | more (h : Httpread)
  | full
  | complete (h : Httpread) (rest : Bytes)

/-- Bytes go to the header until it ends in an empty line. -/
def collectHdr : Bytes → Httpread → Collected
  | [], h => .more h
  | c :: rest, h =>
    if h.hdr.length = httpreadHeaderMaxSize then .full
    else
      let h := { h with hdr := h.hdr ++ [c] }
      if (crlf ++ crlf).isSuffixOf h.hdr then .complete { h with gotHdr := true } rest
      else collectHdr rest h

/-- Requests that never have data. -/
def isBodyless : Bool :=
  equalFold (h.hdr.take 9) (letters "SUBSCRIBE") ||
    equalFold (h.hdr.take 11) (letters "UNSUBSCRIBE") ||
    equalFold (h.hdr.take 4) (letters "HEAD") || equalFold (h.hdr.take 3) (letters "GET")

end Httpread

/-- Where a part of the handler goes on. -/
inductive Turn where
  | go (h : Httpread)
  | trailer (h : Httpread)
  | file (h : Httpread)
  | bad
  | undefined

/-- What a call of the handler comes to. -/
inductive Outcome where
  | more (h : Httpread)
  | file (h : Httpread)
  | bad
  | undefined
  deriving DecidableEq

namespace Httpread

/-- Room for the bytes of this read and a null byte. -/
def grow (nread : Nat) (h : Httpread) : Turn :=
  if (h.body.length : Int) + nread + 1 > intMax then .undefined
  else if h.bodyAllocNbytes < h.body.length + nread + 1 then
    if h.body.length ≥ h.maxBytes then .bad
    else
      let newAllocNbytes := h.bodyAllocNbytes + httpreadBodybufDelta
      let newAllocNbytes :=
        if h.gotContentLength ∧ newAllocNbytes < h.contentLength + 1 then h.contentLength + 1
        else newAllocNbytes
      if newAllocNbytes > intMax then .undefined
      else .go { h with bodyAllocNbytes := newAllocNbytes }
  else .go h

variable (bytes : Bytes) (h : Httpread)

def endChunkHdr : Turn :=
  let line := h.body.drop h.chunkStart
  if crlf.isSuffixOf line then
    if !isXdigit (line.headD 0) then .bad
    else
      let chunkSize := strtoul line
      let h := { h with chunkSize := chunkSize, body := h.body.take h.chunkStart }
      if chunkSize = 0 then .trailer { h with inTrailer := true }
      else .go { h with inChunkData := true }
  else .go h

def endChunkData : Turn :=
  if h.chunkSize + 2 > intMax then .undefined
  else if (h.body.length : Int) - h.chunkStart = h.chunkSize + 2 then
    match h.body.reverse with
    | [] => .undefined
    | last :: front =>
      if last ≠ 10 then .bad
      else
        match front with
        | [] => .undefined
        | c :: _ =>
          if c = 13 then
            .go { h with
              body := h.body.take (h.body.length - 2)
              chunkStart := h.body.length - 2
              inChunkData := false
              chunkSize := 0 }
          else .bad
  else .go h

/-- The tests at the head of the loop that copies the body. -/
def seeIfStop : Turn :=
  if h.chunked ∧ h.inChunkData = false then endChunkHdr h
  else if h.chunked then endChunkData h
  else if h.gotContentLength ∧ (h.body.length : Int) ≥ h.contentLength then
    .file { h with gotBody := true }
  else .go h

def ncopy : Int := h.chunkStart + h.chunkSize + 2 - h.body.length

/-- The same tests when there are bytes to copy.  If none are missing of the chunk, the tests
are made again. -/
def seeIfCopy : Turn :=
  match seeIfStop h with
  | .go h =>
    if h.chunked ∧ h.inChunkData then
      if h.ncopy = 0 then seeIfStop h
      else if h.chunkStart + h.chunkSize + 2 > intMax ∨ h.ncopy < 0 then .undefined
      else .go h
    else .go h
  | turn => turn

def trailerLoop : Bytes → Httpread → Outcome
  | [], h => .more h
  | c :: rest, h =>
    match h.trailerState with
    | .lineBegin =>
      trailerLoop rest { h with trailerState := if c = 13 then .emptyCr else .nonempty }
    | .emptyCr =>
      if c = 10 then
        .file { h with trailerState := .lineBegin, inTrailer := false, gotBody := true }
      else trailerLoop rest { h with trailerState := .nonempty }
    | .nonempty =>
      trailerLoop rest { h with trailerState := if c = 13 then .nonemptyCr else .nonempty }
    | .nonemptyCr =>
      trailerLoop rest { h with trailerState := if c = 10 then .lineBegin else .nonempty }

def push (c : UInt8) (h : Httpread) : Httpread := { h with body := h.body ++ [c] }

def afterLoop (rest : Bytes) (h : Httpread) : Outcome :=
  if h.chunked ∧ h.inTrailer then trailerLoop rest h else .more h

def bodyLoop : Bytes → Httpread → Outcome
  | [], h =>
    match seeIfStop h with
    | .go h => afterLoop [] h
    | .trailer h => afterLoop [] h
    | .file h => .file h
    | .bad => .bad
    | .undefined => .undefined
  | c :: rest, h =>
    match seeIfCopy h with
    | .go h => bodyLoop rest (h.push c)
    | .trailer h => afterLoop (c :: rest) h
    | .file h => .file h
    | .bad => .bad
    | .undefined => .undefined

def readBody : Outcome :=
  if h.isBodyless then .file { h with gotBody := true }
  else if bytes = [] then .more h
  else if h.gotBody then afterLoop bytes h
  else
    match grow bytes.length h with
    | .go h => bodyLoop bytes h
    | .bad => .bad
    | _ => .undefined

def readEof : Outcome :=
  if h.gotHdr = false then .bad
  else if h.chunked ∨ h.gotContentLength then .bad
  else .file { h with gotBody := true }

/-- The handler once the header is complete, with the rest of the read. -/
def finishHdr (rest : Bytes) : Outcome :=
  match hdrAnalyze h with
  | none => .bad
  | some h =>
    if h.maxBytes = 0 then .file h
    else if h.gotContentLength ∧ h.contentLength = 0 then .file h
    else readBody rest h

def readHdr : Outcome :=
  match collectHdr bytes h with
  | .more h => .more h
  | .full => .bad
  | .complete h rest => finishHdr h rest

end Httpread

/-- What `read` gives to the handler: nothing at the end of the file, else at most
`HTTPREAD_READBUF_SIZE` bytes. -/
inductive Read where
  | failed
  | got (bytes : Bytes)
  deriving DecidableEq

def httpreadReadHandler (h : Httpread) : Read → Outcome
  | .failed => .bad
  | .got bytes =>
    if bytes = [] then h.readEof
    else if h.gotHdr then h.readBody bytes
    else h.readHdr bytes

/-- A handle in use.  The file or the error is announced once: after a file the socket is not
read any more, and after an error the application destroys the handle. -/
inductive Reader where
  | reading (h : Httpread)
  | ready (h : Httpread)
  | error
  | undefined
  deriving DecidableEq

def Outcome.reader : Outcome → Reader
  | .more h => .reading h
  | .file h => .ready h
  | .bad => .error
  | .undefined => .undefined

def Reader.next : Reader → Read → Reader
  | .reading h, read => (httpreadReadHandler h read).reader
  | reader, _ => reader

end AthApps.Http
