import Std.Async.DNS
import Std.Async.Signal
import Std.Async.TCP
import Std.Time.DateTime.Timestamp
import StagedPipeline.CommandLine.Response
import StagedPipeline.Completion.Transfer

/-!
# The command line

Reads the arguments, the settings file, the environment and the clocks, speaks to the completion
service, and prints. A session is told what happens while it waits: answers, limits that pass, the
time to look at the pipeline, and interrupts.
-/

namespace StagedPipeline.CommandLine

open Std.Async

/-- Time between two looks at what has happened, in milliseconds. -/
def glance : UInt32 := 5

/-- Time since some fixed point, on the clock that only runs forward. -/
def elapsed : BaseIO Duration := do
  return ⟨← IO.monoNanosNow⟩

/-- The present time. -/
def presentInstant : IO Instant := do
  let nanoseconds := (← Std.Time.Timestamp.now).toNanosecondsSinceUnixEpoch.val
  return ⟨nanoseconds / 1000000000, (nanoseconds % 1000000000).toNat⟩

/-- The present moment. -/
def presentMoment : IO Moment := do
  return ⟨← elapsed, ← presentInstant⟩

/-- A new identifier: the time in milliseconds, and eighty random bits. -/
def freshId : IO PipelineId := do
  let t ← presentInstant
  let random := (← IO.getRandomBytes 10).toList.foldl (fun n byte => n * 256 + byte.toNat) 0
  return .ofNat ((t.seconds.toNat * 1000 + t.nanoseconds / 1000000) * Nat.pow 2 80 + random)

/-- What can be read in a file. -/
def readFile? (path : String) : IO (Option String) := do
  try
    return some (← IO.FS.readFile path)
  catch _ =>
    return none

/-- The bytes that come until the connection is closed. -/
partial def receiveAll (client : TCP.Socket.Client) (received : ByteArray) : Async ByteArray := do
  match ← client.recv? 65536 with
  | some bytes => receiveAll client (received ++ bytes)
  | none => return received

/-- The socket address of a host. -/
def socketAddress (address : Std.Net.IPAddr) (port : UInt16) : Std.Net.SocketAddress :=
  match address with
  | .v4 address => .v4 ⟨address, port⟩
  | .v6 address => .v6 ⟨address, port⟩

/-- Sends a request and waits for the reply. -/
def converse (destination : Transfer.Destination) (request : HttpRequest) : Async HttpReply := do
  let addresses ← DNS.getAddrInfo destination.host (decimalText destination.port.toNat)
  match addresses[0]? with
  | none => return Transfer.unreachable request.url
  | some address => do
    let client ← TCP.Socket.Client.mk
    client.connect (socketAddress address destination.port)
    client.send (Transfer.requestText destination request).toUTF8
    return Transfer.readReply (← receiveAll client .empty).toList

/-- What comes back for a request. -/
def exchange (request : HttpRequest) : IO HttpReply := do
  match Transfer.Destination.ofUrl? request.url with
  | none => return Transfer.unreachable request.url
  | some destination =>
    try
      (converse destination request).block
    catch _ =>
      return Transfer.unreachable request.url

/-- What a run needs besides its session. -/
structure Workplace where
  service : Service
  /-- Time limit of a request. -/
  requestLimit : Duration
  logJson : Bool
  /-- Gets ready for the next interrupt. -/
  interrupts : Signal.Waiter

/-- Says something beside the output. -/
def say (logJson : Bool) (remarks : List Remark) : IO Unit := do
  IO.eprint (remarksText logJson (← presentInstant) remarks)

/-- Lets a session hear something. -/
def hear (w : Workplace) (s : Session) (happening : Happening) : IO Session := do
  let (s, remarks) := s.next happening (← presentMoment)
  say w.logJson remarks
  return s

/-- What a session waits for: an answer that is on its way, or a point in time. -/
structure Expected where
  reply : Option (Task (Except IO.Error HttpReply))
  /-- When the request is given up. -/
  giveUp : Duration
  /-- When the wait ends in any case. -/
  limit : Duration

/-- Starts to wait. -/
def expect (w : Workplace) (wait : Wait) : IO Expected := do
  let now ← elapsed
  match wait with
  | .answer request limit =>
    return ⟨some (← IO.asTask (exchange (w.service.send request))), now.add w.requestLimit,
      now.add limit⟩
  | .rest delay => return ⟨none, now.add delay, now.add delay⟩

/-- What has come of a wait. -/
def Expected.signal? (w : Workplace) (e : Expected) : IO (Option Signal) := do
  let now ← elapsed
  match e.reply with
  | none => return if e.limit.nanoseconds ≤ now.nanoseconds then some .rested else none
  | some reply =>
    if ← IO.hasFinished reply then
      let (answer, notices) ← match ← IO.wait reply with
        | .ok reply => pure (Service.receive reply)
        | .error _ => pure (Service.receive (.failed "error sending request"))
      say w.logJson (Remark.ofNotices notices)
      return some (.answered answer)
    else if e.limit.nanoseconds ≤ now.nanoseconds then return some .timedOut
    else if e.giveUp.nanoseconds ≤ now.nanoseconds then
      return some (.answered (.error (.transport "operation timed out")))
    else return none

/-- Goes on until the drive has returned. -/
partial def attend (w : Workplace) (s : Session) (expected : Option Expected)
    (interrupt : AsyncTask Int) (nextLook : Duration) : IO Session := do
  match s.progress with
  | some (.returned _) => return s
  | none => attend w (← hear w s .begun) none interrupt nextLook
  | some (.waiting _ wait) => do
    let expected ← match expected with
      | some expected => pure expected
      | none => expect w wait
    if ← IO.hasFinished interrupt then
      let s ← hear w s .interrupt
      attend w s (some expected) (← w.interrupts.wait) nextLook
    else
      match ← expected.signal? w with
      | some signal => attend w (← hear w s (.ended signal)) none interrupt nextLook
      | none => do
        let now ← elapsed
        if nextLook.nanoseconds ≤ now.nanoseconds then
          attend w (← hear w s .tick) (some expected) interrupt (now.add s.engine.pollSpan)
        else
          IO.sleep glance
          attend w s (some expected) interrupt nextLook

/-- Prints a response. -/
def finish (r : Response) : IO UInt32 := do
  IO.print r.output
  IO.eprint r.comment
  return r.exitCode

/-- Prints the response of a session, by the arithmetic of a build for release. Without a response
the exit code is that of a program that is broken off. -/
def conclude (json : Bool) (s : Session) : IO UInt32 := do
  match Response.ofSession? .wrapping json s with
  | some r => finish r
  | none => finish ⟨"", "overflow when adding durations\n", 134⟩

/-- Runs a task. -/
def runTask (logJson : Bool) (settings : Settings) (options : RunOptions) : IO UInt32 := do
  let config := settings.executor
  let (service, notices) := Service.ofConfig config (← IO.getEnv config.apiKeyVariable)
  say logJson (Remark.ofNotices notices)
  match Session.start settings.engine options (← freshId) (← presentMoment) with
  | .error e => finish (.ofRefusal e)
  | .ok (s, remarks) => do
    say logJson remarks
    let interrupts ← Signal.Waiter.mk .sigint true
    let w : Workplace := ⟨service, .ofSeconds config.requestTimeout.toNat, logJson, interrupts⟩
    let s ← attend w s none (← interrupts.wait) (← elapsed)
    interrupts.stop
    say logJson s.closing
    conclude options.json s

/-- Does what some arguments ask for. -/
def program (arguments : List String) : IO UInt32 := do
  match Invocation.parse arguments with
  | .error stop => finish (.ofStop stop)
  | .ok invocation => do
    let file ← invocation.configPath.mapM fun path => do
      return (⟨path, ← readFile? path⟩ : Settings.File)
    match Settings.load file with
    | .error e => finish (.ofConfigError (invocation.configPath.getD "") e)
    | .ok settings =>
      match invocation.command with
      | .config => finish (.ofSettings settings)
      | .run options => runTask invocation.logJson settings options

end StagedPipeline.CommandLine

def main (arguments : List String) : IO UInt32 :=
  StagedPipeline.CommandLine.program arguments
