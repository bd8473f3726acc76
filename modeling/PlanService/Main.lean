import PlanService.Config.Service
import PlanService.Http.Exchange
import PlanService.Program.Basic
import Std.Async.DNS
import Std.Async.Signal
import Std.Async.TCP
import Std.Async.Timer

/-! # The executable

Carries out the steps of the program's dialogue with files, sockets, the clock and the
terminal.
-/

namespace PlanService.Terminal

open Http (Head Remainder Request Response Url)
open Std.Async
open Std.Async.TCP (Socket.Client Socket.Server)
open Std.Net (IPAddr IPv4Addr SocketAddress SocketAddressV4 SocketAddressV6)

/-! ## Connections -/

def resolve (host : String) (port : Nat) : IO SocketAddress := do
  let port := port.toUInt16
  let found : Array IPAddr ←
    match IPv4Addr.ofString host with
    | some address => pure #[IPAddr.v4 address]
    | none => (DNS.getAddrInfo host (toString port)).block
  match found.toList with
  | IPAddr.v4 addr :: _ => return .v4 { addr, port }
  | IPAddr.v6 addr :: _ => return .v6 { addr, port }
  | [] => throw (.userError "no address")

def toBytes (bytes : List UInt8) : ByteArray := ⟨bytes.toArray⟩

def receive (socket : Socket.Client) : IO (Option (List UInt8)) := do
  return (← (socket.recv? 65536).block).map (·.toList)

partial def receiveHead (socket : Socket.Client) (got : List UInt8) :
    IO (Option (Head × List UInt8)) := do
  match Http.cutHead got with
  | some (head, rest) => return some (.ofBytes head, rest)
  | none =>
    match ← receive socket with
    | some bytes => receiveHead socket (got ++ bytes)
    | none => return none

partial def receiveBody (socket : Socket.Client) (got : List UInt8) (remainder : Remainder) :
    IO (List UInt8) := do
  if remainder.isDone then return got
  match ← receive socket with
  | some bytes =>
    let (body, remainder) := remainder.take bytes
    receiveBody socket (got ++ body) remainder
  | none => return got

/-! ## Interrupts -/

def catchInterrupt : IO (AsyncTask Int) := do
  (← Signal.Waiter.mk .sigint false).wait

def interruptSelector (interrupt : AsyncTask Int) : Selector Unit where
  tryFn := do
    if ← IO.hasFinished interrupt then return some ()
    return none
  registerFn waiter := do
    let resolve (_ : Int) : IO Unit := waiter.race (pure ()) fun promise => promise.resolve (.ok ())
    discard <| AsyncTask.mapIO resolve interrupt
  unregisterFn := pure ()

/-! ## Asking -/

/-- An open connection: what of its body has come, and what remains. -/
structure Link where
  socket : Socket.Client
  body : List UInt8
  remainder : Remainder

def send (client : Client) {α : Type} (call : Client.Call α) :
    IO (Except ClientError (Response × Link)) := do
  let failed : Except ClientError (Response × Link) := .error (.transport client.baseUrl)
  let some url := client.url? call.path | return failed
  try
    let socket ← Socket.Client.mk
    (socket.connect (← resolve url.host url.port)).block
    (socket.send (toBytes ((call.request url).bytes s!"{url.host}:{url.port}"))).block
    let some (head, rest) ← receiveHead socket [] | return failed
    let some response := head.response? | return failed
    let (body, remainder) := (Remainder.ofResponse head).take rest
    return .ok (response, { socket, body, remainder })
  catch _ => return failed

structure Watch where
  link : Link
  watcher : Watcher := {}
  -- How many events of the body the watcher has been told.
  told : Nat := 0

def Watch.update (watch : Watch) (ended : Bool) : Watch :=
  let events := EventStream.events (toText watch.link.body)
  { watch with
    watcher := { watch.watcher with unread := watch.watcher.unread ++ events.drop watch.told, ended }
    told := events.length }

inductive News where
  | bytes (bytes : Option (List UInt8))
  | interrupted
  | late

def awaitNews (link : Link) (interrupt : AsyncTask Int) (deadline : Option Nat) : IO News := do
  let news : Async News := do
    let mut cases : Array (Selectable News) :=
      #[.case (link.socket.recvSelector 65536) fun bytes => pure (.bytes (bytes.map (·.toList))),
        .case (interruptSelector interrupt) fun _ => pure .interrupted]
    if let some deadline := deadline then
      let left := deadline - (← IO.monoMsNow)
      let timer ← Selector.sleep (.ofNat left)
      cases := cases.push (.case timer fun _ => pure .late)
    Selectable.one cases
  try news.block
  catch _ => return .bytes none

partial def await (watch : Watch) (interrupt : AsyncTask Int) (limit deadline : Option Nat) :
    IO (Awaited × Watch) := do
  match watch.watcher.next with
  | (some result, watcher) => return (.told result, { watch with watcher })
  | (none, watcher) =>
    let watch := { watch with watcher }
    match ← awaitNews watch.link interrupt deadline with
    | .interrupted => return (.interrupted, watch)
    | .late =>
      let (result, watcher) := watch.watcher.giveUp (limit.getD 0)
      return (.told result, { watch with watcher })
    | .bytes none => await (watch.update true) interrupt limit deadline
    | .bytes (some bytes) =>
      let (body, remainder) := watch.link.remainder.take bytes
      let link := { watch.link with body := watch.link.body ++ body, remainder }
      await ({ watch with link }.update remainder.isDone) interrupt limit deadline

/-! ## Serving -/

/-- A service that lives by the clock of the machine. -/
structure Service where
  socket : Socket.Server
  session : IO.Ref (Session Simulated)
  started : Nat
  -- Whether open streams are to end.
  stopping : IO.Ref Bool

def Service.visit {α : Type} (service : Service)
    (use : Session Simulated → α × Session Simulated) : IO α := do
  let now := (← IO.monoMsNow) - service.started
  service.session.modifyGet fun session => use (session.elapse (now - session.clock))

/-- Sends a completion stream until it has ended or the service stops. -/
partial def sendStream (service : Service) (socket : Socket.Client) (stream : CompletionStream) :
    IO Unit := do
  let (text, stream) ← service.visit fun session =>
    (stream.read session.worker session.clock, session)
  unless text.isEmpty do (socket.send text.toUTF8).block
  if stream.ended then socket.shutdown.block
  else unless ← service.stopping.get do
    IO.sleep 10
    sendStream service socket stream

def answer (service : Service) (socket : Socket.Client) : IO Unit := do
  let some (head, rest) ← receiveHead socket [] | return
  let some request := head.request? | return
  let (body, remainder) := (Remainder.ofRequest head).take rest
  let body ← receiveBody socket body remainder
  match ← service.visit (·.request { request with body := Http.bodyText body }) with
  | .response response =>
    (socket.send (toBytes response.bytes)).block
    socket.shutdown.block
  | .stream head stream =>
    (socket.send (toBytes (head.headBytes []))).block
    sendStream service socket stream

def listen (config : Config) : IO (Option Service) := do
  try
    let socket ← Socket.Server.mk
    socket.bind (← resolve config.api.host config.api.port)
    socket.listen 128
    return some
      { socket
        session := ← IO.mkRef config.service
        started := ← IO.monoMsNow
        stopping := ← IO.mkRef false }
  catch _ => return none

/-- Accepts connections until the user interrupts, which ends the open streams too. -/
partial def serve (service : Service) (interrupt : AsyncTask Int) : IO Unit := do
  let next : Async (Option Socket.Client) :=
    Selectable.one
      #[.case service.socket.acceptSelector fun socket => pure (some socket),
        .case (interruptSelector interrupt) fun _ => pure none]
  match ← next.block with
  | some socket =>
    let _ ← IO.asTask (answer service socket) .dedicated
    serve service interrupt
  | none => service.stopping.set true

/-! ## The dialogue -/

def openLog (dir : String) (level : LogLevel) : IO Bool := do
  try
    unless dir.isEmpty do IO.FS.createDirAll dir
    IO.FS.writeFile (Program.logFile dir) s!"Logging initialized (level: {level.text})\n"
    return true
  catch _ => return false

structure Open where
  watch : IO.Ref (Option Watch)
  service : IO.Ref (Option Service)

def perform (resources : Open) {α : Type} : Action α → IO α
  | .print output => do
    let out ← IO.getStdout
    out.putStr output.text
    out.flush
  | .warn line => IO.eprintln line
  | .openLog dir level => openLog dir level
  | .ask client call => do
    match ← send client call with
    | .error error => return .error error
    | .ok (response, link) =>
      try
        let body ← receiveBody link.socket link.body link.remainder
        return call.read { response with body := toText body }
      catch _ => return .error (.invalidResponse "error decoding response body")
  | .watch client id => do
    let call := Watcher.opening id
    match ← send client call with
    | .error error => return .error error
    | .ok (response, link) =>
      match call.read response with
      | .error error => return .error error
      | .ok () =>
        resources.watch.set (some (Watch.update { link } link.remainder.isDone))
        return .ok ()
  | .await limit => do
    match ← resources.watch.get with
    | none => return .told (.error (.stream "completion stream ended"))
    | some watch =>
      let now ← IO.monoMsNow
      let (awaited, watch) ← await watch (← catchInterrupt) limit (limit.map (now + ·))
      resources.watch.set (some watch)
      return awaited
  | .listen config => do
    let service ← listen config
    resources.service.set service
    return service.isSome
  | .serve => do
    match ← resources.service.get with
    | some service => serve service (← catchInterrupt)
    | none => return

def run (resources : Open) {α : Type} : Dialogue α → IO α
  | .done a => return a
  | .step action next => do
    let b ← perform resources action
    run resources (next b)

def configDir : IO (Option String) := do
  match ← IO.getEnv "XDG_CONFIG_HOME" with
  | some dir => if dir.startsWith "/" then return some dir
  | none => pure ()
  return (← IO.getEnv "HOME").map fun home => s!"{home}/.config"

def readFile (path : String) : IO (Option (List UInt8)) := do
  try return some (← IO.FS.readBinFile path).toList
  catch _ => return none

def readFiles (named : Option String) : IO Config.Files := do
  let configDir ← configDir
  let paths := named.toList ++ Config.localPath :: (configDir.map Config.userPath).toList
  let contents ← paths.mapM fun path => return (path, ← readFile path)
  return { content := fun path => (contents.lookup path).join, configDir }

end PlanService.Terminal

open PlanService in
def main (args : List String) : IO UInt32 := do
  let named := ((Invocation.read args).toOption.map (·.config)).join
  let files ← Terminal.readFiles named
  let resources : Terminal.Open := { watch := ← IO.mkRef none, service := ← IO.mkRef none }
  let exit ← Terminal.run resources (Program.dialogue files args)
  return exit.code.toUInt32
