import Speedtest.Identifier
import Speedtest.Program
import Speedtest.Serving.Connection
import Speedtest.Serving.Run
import Speedtest.Wire.Responses
import Std.Async.DNS
import Std.Async.Signal
import Std.Async.TCP
import Std.Async.Timer
import Std.Sync.CancellationToken
import Std.Time.DateTime.Timestamp

/-!
# The executable

The two programs meet the machine here: the environment, the files, the clock and the network. The word
`stats` in front asks for the statistics client, and any other command line is the server's. Everything that is
decided is decided elsewhere; what is read is handed over, and what comes back is carried out. Connections are
plain ones, so a server that has an identity for secure ones is not run, and a question to a server that wants
one meets a refusal.
-/
namespace Speedtest.Main

open Std.Async Std.Net
open Std (CancellationToken)

/-! ## Environment and files -/

/-- The variables of a block in which a zero ends each. -/
def variablesOf (block : Bytes) : List (String × String) :=
  (block.splitOn 0).filterMap fun entry =>
    (Text.Utf8.decode? entry).bind fun s =>
      match s.dropWhile (· != '=') with
      | _ :: value => some (String.ofList (s.takeWhile (· != '=')), String.ofList value)
      | [] => none

def readEnvironment : IO (List (String × String)) := do
  return variablesOf (← IO.FS.readBinFile "/proc/self/environ").toList

def placeOf (home : List String) (name : String) : List String :=
  let start := if name.startsWith "/" then [] else home
  (name.splitOn "/").foldl (fun place part =>
    if part = "" ∨ part = "." then place
    else if part = ".." then place.dropLast
    else place ++ [part]) start

/-- What stands at a place, if anything does. -/
def readEntry (place : List String) : IO (List (List String × Option Bytes)) := do
  let name := "/" ++ "/".intercalate place
  try
    if ← (← IO.FS.realPath name).isDir then return [(place, none)]
    else return [(place, some (← IO.FS.readBinFile name).toList)]
  catch _ => return []

/-- What stands on the ways to the places of some names. -/
def readFiles (names : List String) : IO Files := do
  let home := placeOf [] (toString (← IO.currentDir))
  let ways := names.flatMap fun name =>
    let place := placeOf home name
    (List.range place.length).map fun n => place.take (n + 1)
  return ⟨home, (← ways.eraseDups.mapM readEntry).flatten⟩

def readServerFiles (words : List String) (environment : List (String × String)) : IO Files := do
  let name := match CommandLine.Serve.read words with
    | .ok (.serve name) => name
    | _ => none
  let first := name.getD Settings.usualFile
  let files ← readFiles [first]
  match Settings.load files name environment with
  | .ok s => readFiles [first, s.tlsCertFile, s.tlsKeyFile]
  | .error _ => return files

/-! ## Clock and chance -/

def readClock : IO Time.Instant := do
  let now ← Std.Time.Timestamp.now
  return ⟨now.val.second.val, now.val.nano.val.toNat⟩

def draw (count : USize) : IO Bytes := return (← IO.getRandomBytes count).toList

def newIdentifier : IO String := return Identifier.text (Identifier.ofDrawn (← draw 16))

/-- What a request meets when the lookup service replies in this way. -/
def newMoment (reply : Http.Reply) : IO Service.Moment :=
  return ⟨← readClock, ← newIdentifier, ← newIdentifier, reply⟩

/-! ## Network -/

def ofAddress : IPAddr → Address.Ip
  | .v4 a => .v4 ⟨a.octets[0], a.octets[1], a.octets[2], a.octets[3]⟩
  | .v6 a => .v6 ⟨a.segments.toList, by simp⟩

def ofSocketAddress : SocketAddress → Address.Endpoint
  | .v4 s => .ofIp (ofAddress (.v4 s.addr)) s.port
  | .v6 s => .ofIp (ofAddress (.v6 s.addr)) s.port

def toSocketAddress : Address.Endpoint → SocketAddress
  | .v4 a port => .v4 ⟨⟨#v[a.o1, a.o2, a.o3, a.o4]⟩, port⟩
  | .v6 a port _ => .v6 ⟨⟨⟨a.groups.toArray, by simp [a.length_eq]⟩⟩, port⟩

/-- The most bytes that are taken off a connection at once. -/
def readSize : UInt64 := 1048576

/-- All bytes that are still to come on a connection. -/
partial def receiveAll (c : TCP.Socket.Client) (gathered : ByteArray) : Async ByteArray := do
  let more ← try c.recv? readSize catch _ => pure none
  match more with
  | some b => receiveAll c (gathered ++ b)
  | none => return gathered

/-- At least so many more bytes, unless the connection ends before. -/
partial def receive (c : TCP.Socket.Client) (count : Nat) (gathered : ByteArray) :
    Async (Option Bytes) := do
  if 0 < gathered.size ∧ count ≤ gathered.size then return some gathered.toList
  else match ← c.recv? readSize with
    | some b => receive c count (gathered ++ b)
    | none => return none

def send (c : TCP.Socket.Client) (b : Bytes) : Async Unit := c.send b.toByteArray

def addressesOf : Url.Host → Async (List Address.Ip)
  | .v4 a => return [.v4 a]
  | .v6 a => return [.v6 a]
  | .name s => do
    try
      return (← DNS.getAddrInfo (String.ofList s) "").toList.map ofAddress
    catch _ => return []

/-- A connection to the first endpoint that takes one. -/
def connect : List Address.Endpoint → Async (Option TCP.Socket.Client)
  | [] => return none
  | e :: rest => do
    try
      let c ← TCP.Socket.Client.mk
      c.connect (toSocketAddress e)
      return some c
    catch _ => connect rest

def ask (url : Url) (own : Http.Headers) : Async Http.Reply := do
  match url.scheme == "http".toList, url.authority with
  | true, some authority =>
    let port := UInt16.ofNat (authority.port.getD 80)
    let found ← addressesOf authority.host
    let some c ← connect (found.map fun a => .ofIp a port) | return .refused
    let host := String.ofList { authority with credentials := [] }.text
    try
      send c (Wire.writeQuestion (String.ofList url.targetText) host own)
      return Wire.replyOf (← receiveAll c .empty).toList
    catch _ => return .closed
  | _, _ => return .refused

instance : Inhabited Http.Reply := ⟨.closed⟩

/-- How long the lookup service may take to reply. -/
def lookupTime : Std.Time.Millisecond.Offset := 5000

def lookUp (url : Url) : Async Http.Reply :=
  Async.race (ask url []) do
    sleep lookupTime
    return .closed

/-! ## Serving -/

/-- A server while it runs. -/
structure Running where
  server : Serving.Server
  state : IO.Ref Service.State
  run : IO.Ref Serving.Run
  /-- Cancelled when the server begins to drain. -/
  drain : CancellationToken

abbrev Answerer := Http.Request → Async Http.Response

namespace Running

def happen (r : Running) (e : Serving.Event) : IO Unit :=
  r.run.modify fun run => (run.step e).getD run

def phase (r : Running) : IO Serving.Phase := return (← r.run.get).phase

/-- Answers with the service. What the service would ask for is asked for before. -/
def answer (r : Running) : Answerer := fun request => do
  let m ← newMoment .closed
  let tried := (r.server.service.exchange m request (← r.state.get)).1
  let reply ← match tried.lookups with
    | url :: _ => lookUp url
    | [] => pure .closed
  r.state.modifyGet fun st =>
    let (answer, st) := r.server.service.exchange { m with reply } request st
    (answer.response, st)

def publish (r : Running) : Answerer := fun _ =>
  return .text 200 (← r.state.get).counters.text

/-- Bytes with which another request starts, unless the connection ends or the server drains before. -/
def awaitRequest (r : Running) (c : TCP.Socket.Client) : Async (Option Bytes) :=
  Selectable.one #[
    .case (c.recvSelector readSize) fun b => return b.map ByteArray.toList,
    .case r.drain.selector fun _ => return none]

/-- The body of a request, of which some bytes are there, and the bytes behind it. -/
partial def collect (c : TCP.Socket.Client) (framing : Wire.Framing) (s : Bytes) :
    Async (Http.Body × Option Bytes) := do
  match framing.read (Wire.breakReason .closed) s with
  | (body, some rest) => return (body, some rest)
  | (body, none) =>
    match ← receive c (framing.missing s) .empty with
    | some more => collect c framing (s ++ more)
    | none => return (body, none)

def sendResponse (c : TCP.Socket.Client) (m : Wire.Manner) (response : Http.Response) : Async Unit := do
  send c (Wire.writeHead m (← readClock) response)
  for (piece, times) in Wire.bodyPieces m response do
    let b := piece.toByteArray
    for _ in [0:times] do
      c.send b

/-- Answers the requests of a connection whose client is known, of which some bytes are there. -/
partial def converse (r : Running) (answer : Answerer) (c : TCP.Socket.Client)
    (client : Address.Endpoint) (s : Bytes) : Async Unit := do
  match Wire.Head.readFramed s with
  | .unfinished =>
    match ← (if s.isEmpty then r.awaitRequest c else receive c 1 .empty) with
    | some more => converse r answer c client (s ++ more)
    | none => c.shutdown
  | .refused fault =>
    sendResponse c .refusal (Wire.refusalResponse fault)
    c.shutdown
  | .done (head, framing) rest =>
    if head.awaitsLeave ∧ rest.length < framing.missing [] then send c Wire.leave
    let (body, rest) ← collect c framing rest
    let response ← answer { head.request body with peer := some client }
    let manner := Wire.Manner.ofHead head response
    sendResponse c manner response
    match manner.keepsAlive, rest with
    | true, some rest => converse r answer c client rest
    | _, _ => c.shutdown

/-- The client of a connection and the bytes behind its header, of which some bytes are there. -/
partial def unwrap (r : Running) (c : TCP.Socket.Client) (peer : Address.Endpoint) (s : Bytes) :
    Async (Except Relay.HeaderError (Address.Endpoint × Bytes)) := do
  let outcome (ending : Relay.Ending) :=
    (r.server.unwrap peer ⟨[s], ending⟩).map fun (client, feed) => (client, feed.bytes)
  match outcome .silence with
  | .error .timeout =>
    match ← receive c 1 .empty with
    | some more => unwrap r c peer (s ++ more)
    | none => return outcome .closed
  | decided => return decided

instance : Inhabited (Except Relay.HeaderError (Address.Endpoint × Bytes)) := ⟨.error .timeout⟩

/-- How long the header of a connection may take. -/
def headerTime : Std.Time.Millisecond.Offset := 10000

def serveClient (r : Running) (c : TCP.Socket.Client) : Async Unit := do
  let peer := ofSocketAddress (← c.getPeerName)
  let unwrapped ← Async.race (r.unwrap c peer []) do
    sleep headerTime
    return .error .timeout
  match unwrapped with
  | .ok (client, rest) => r.converse r.answer c client rest
  | .error _ =>
    r.state.modify fun st => st.count .badHeaders 1
    c.shutdown

/-- Serves a connection to where the counters are published. -/
def serveCounters (r : Running) (c : TCP.Socket.Client) : Async Unit := do
  r.converse r.publish c (ofSocketAddress (← c.getPeerName)) []

/-- The next connection, unless the server drains before. -/
def accept (r : Running) (listener : TCP.Socket.Server) : Async (Option TCP.Socket.Client) :=
  Selectable.one #[
    .case listener.acceptSelector fun c => return some c,
    .case r.drain.selector fun _ => return none]

/-- A failure to accept. What says that resources are short goes by the number for a lack of descriptors. -/
def acceptError (e : IO.Error) : Serving.AcceptError :=
  match e with
  | .resourceVanished _ _ => ⟨.linux, .reset, none, toString e⟩
  | .interrupted _ _ _ => ⟨.linux, .interrupted, none, toString e⟩
  | .timeExpired _ _ => ⟨.linux, .wouldBlock, none, toString e⟩
  | .resourceExhausted _ _ _ => ⟨.linux, .other, some 24, toString e⟩
  | _ => ⟨.linux, .other, none, toString e⟩

/-- How long the server waits for resources. -/
def backOff : Std.Time.Millisecond.Offset := 100

def takeIn (r : Running) (c : TCP.Socket.Client) : Async Unit := do
  let guard ← r.run.modifyGet fun run =>
    ((run.tracked.track 0).1.id, (run.step .accepted).getD run)
  background do
    try r.serveClient c catch _ => pure ()
    r.happen (.finished guard)

/-- Takes connections in for as long as the server serves. -/
partial def takeAllIn (r : Running) (listener : TCP.Socket.Server) : Async Unit := do
  if (← r.phase) != .serving then return
  let accepted ← try Except.ok <$> r.accept listener catch e => pure (.error e)
  match accepted with
  | .ok (some c) =>
    r.takeIn c
    takeAllIn r listener
  | .ok none => r.happen .shutdown
  | .error e =>
    let error := acceptError e
    r.happen (.refused error)
    if error.fault == .resources then
      sleep backOff
      r.happen .rested
    takeAllIn r listener

/-- Publishes the counters for as long as the server serves. -/
partial def publishAll (r : Running) (listener : TCP.Socket.Server) : Async Unit := do
  match ← r.accept listener with
  | some c =>
    background do
      try r.serveCounters c catch _ => pure ()
    publishAll r listener
  | none => return

/-- How often the server looks whether its connections are over. -/
def glance : Std.Time.Millisecond.Offset := 20

/-- Waits until the connections are over or the clock reaches the end of the grace period. -/
partial def awaitStop (r : Running) (deadline : Nat) : Async Unit := do
  if (← r.phase) == .stopped then return
  if deadline ≤ (← IO.monoMsNow) then r.happen .graceElapsed
  else sleep glance
  awaitStop r deadline

end Running

/-- Drains the server when the process is told to stop. -/
def drainOn (signal : Signal) (drain : CancellationToken) : Async Unit := do
  let waiter ← Signal.Waiter.mk signal false
  background do
    let _ ← await (← waiter.wait)
    drain.cancel .shutdown

/-- A socket that listens at an endpoint, or why there is none. -/
def listen (e : Address.Endpoint) : IO (Except String TCP.Socket.Server) := do
  try
    let listener ← TCP.Socket.Server.mk
    listener.bind (toSocketAddress e)
    listener.listen 1024
    return .ok listener
  catch fault => return .error (toString fault)

/-- The end of a server whose socket cannot be opened. -/
def unbound (e : Address.Endpoint) (reason : String) : Client.Report :=
  .failed (Serving.StartupError.listener (.bind (String.ofList e.text) reason)).message

def runServer (started : Serving.Started) : Async Client.Report := do
  if started.ready.server.identity.isSome then
    return .failed "secure connections have to be taken off in front of this server"
  let endpoint := started.socket.endpoint
  match ← listen endpoint with
  | .error reason => return unbound endpoint reason
  | .ok listener =>
    let r : Running := ⟨started.ready.server, ← IO.mkRef started.ready.state,
      ← IO.mkRef Serving.Run.start, ← CancellationToken.new⟩
    if let some e := started.metrics then
      match ← listen e with
      | .error _ => return .failed (Serving.StartupError.metricsUnavailable (String.ofList e.text)).message
      | .ok counters => background (r.publishAll counters)
    drainOn .sigint r.drain
    drainOn .sigterm r.drain
    r.happen .begin
    r.takeAllIn listener
    r.drain.cancel .shutdown
    r.awaitStop ((← IO.monoMsNow) + started.ready.server.graceSeconds * 1000)
    match (← r.run.get).returned? with
    | some (.error e) => return .failed e.message
    | _ => return ⟨"", "", 0⟩

/-- A machine that leaves it to the attempt whether an address is its own and which port is free. -/
def machine : Serving.Machine := ⟨fun _ => true, 0⟩

/-- The server. It is set up once to learn what it asks the lookup service for, and then with the reply. -/
def serve (words : List String) : Async Client.Report := do
  let environment ← readEnvironment
  let files ← readServerFiles words environment
  let chunk ← draw Download.chunkSize.toUSize
  let setUp (reply : Http.Reply) :=
    Program.server ⟨words, environment, files, machine, [], reply⟩ chunk
  match setUp .closed with
  | .ends report => return report
  | .goesOn started =>
    match started.ready.lookups with
    | [] => runServer started
    | url :: _ =>
      match setUp (← lookUp url) with
      | .ends report => return report
      | .goesOn started => runServer started

def showStatistics (words : List String) : Async Client.Report := do
  match Program.stats words (← readEnvironment) with
  | .ends report => return report
  | .goesOn q => return Program.report (← ask q.url [("authorization", q.authorization)])

/-- The program that a command line asks for. -/
def run : List String → Async Client.Report
  | "stats" :: words => showStatistics words
  | words => serve words

end Speedtest.Main

/-- Runs the program and prints what it comes to. -/
def main (words : List String) : IO UInt32 := do
  let report ← (Speedtest.Main.run words).block
  IO.print report.output
  IO.eprint report.errors
  return UInt32.ofNat report.code
