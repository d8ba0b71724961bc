import OomHero.Arguments

/-!
# Signals - The senders

A sender tells a process, or a service in its place, that it crossed a threshold.  Which
sender runs is decided by the flags.  What the rest of the system answers to a request
comes as input.

Main results:

- Theorem {lit}`SignalSenders.send_crossed`: a severity that was crossed makes one request,
  and its answer is the outcome.
- Theorem {lit}`SignalSenders.new_request`: it is the request the flags ask for.
-/

namespace OomHero

/-! ## Requests -/

/-- The signals of the system. -/
inductive Signal where
  | sighup | sigint | sigquit | sigill | sigtrap | sigabrt | sigbus | sigfpe | sigkill | sigusr1
  | sigsegv | sigusr2 | sigpipe | sigalrm | sigterm | sigstkflt | sigchld | sigcont | sigstop
  | sigtstp | sigttin | sigttou | sigurg | sigxcpu | sigxfsz | sigvtalrm | sigprof | sigwinch
  | sigio | sigpwr | sigsys
deriving DecidableEq, Repr

/-- An HTTP header. -/
structure Header where
  name : String
  value : String
deriving DecidableEq, Repr

/-- What can be configured of the notifications. -/
structure HttpNotificationConfig where
  url : String
  headers : List Header
deriving DecidableEq, Repr

/-- What a notification tells. -/
structure HttpNotificationBody (F : Type) where
  severity : CheckerResult
  process : Process
  collectedData : CollectedData F
deriving DecidableEq, Repr

/-- What a sender asks of the rest of the system. -/
inductive Request (F : Type) where
  | kill (pid : Int32) (signal : Signal)
  | post (url : String) (headers : List Header) (body : HttpNotificationBody F)
deriving DecidableEq, Repr

variable {F : Type}

/-! ## The senders -/

/-- The sender of unix signals. -/
structure UnixSignalSender where
  warning : Signal
  critical : Signal
deriving DecidableEq, Repr

instance : Inhabited UnixSignalSender where
  default := { warning := .sigusr1, critical := .sigusr2 }

/-- Send a signal to a process.  It depends on the severity, and there is none for data
within the limits. -/
def UnixSignalSender.send (sender : UnixSignalSender) (answer : Request F → Except Error Unit)
    (severity : CheckerResult) (process : Process) (_ : CollectedData F) :
    List (Request F) × Except Error Unit :=
  match severity with
  | .none => ([], .ok ())
  | .warning => ([.kill process.pid sender.warning], answer (.kill process.pid sender.warning))
  | .critical => ([.kill process.pid sender.critical], answer (.kill process.pid sender.critical))

/-- The sender of HTTP requests. -/
structure HttpSignalSender where
  config : HttpNotificationConfig
deriving DecidableEq, Repr

namespace HttpSignalSender

/-- Read the configuration of a sender.  {lit}`readFile` reads a file and {lit}`fromYaml`
parses its content. -/
def new (readFile : String → Except Error String)
    (fromYaml : String → Except Error HttpNotificationConfig) (path : String) :
    Except Error HttpSignalSender := do
  let content ← readFile path
  let config ← fromYaml content
  return { config }

/-- Issue the request. -/
def send (sender : HttpSignalSender) (answer : Request F → Except Error Unit)
    (severity : CheckerResult) (process : Process) (cd : CollectedData F) :
    List (Request F) × Except Error Unit :=
  let body := { severity, process, collectedData := cd }
  let request := .post sender.config.url sender.config.headers body
  ([request], answer request)

end HttpSignalSender

/-- The flags that configure the monitor and its sender. -/
structure SenderFlags extends Flags where
  warningSignal : Signal
  criticalSignal : Signal
  httpFilePath : Option String
deriving DecidableEq, Repr

instance : Inhabited SenderFlags where
  default :=
    { toFlags := default
      warningSignal := .sigusr1
      criticalSignal := .sigusr2
      httpFilePath := none }

/-- One of the senders. -/
inductive SignalSenders where
  | unix (sender : UnixSignalSender)
  | http (sender : HttpSignalSender)
deriving DecidableEq, Repr

namespace SignalSenders

/-- The sender the flags ask for. -/
def new (readFile : String → Except Error String)
    (fromYaml : String → Except Error HttpNotificationConfig) (flags : SenderFlags) :
    Except Error SignalSenders :=
  match flags.httpFilePath with
  | none => .ok (.unix { warning := flags.warningSignal, critical := flags.criticalSignal })
  | some path => do
      let sender ← HttpSignalSender.new readFile fromYaml path
      return .http sender

/-- Forward a call to the sender. -/
def send (sender : SignalSenders) (answer : Request F → Except Error Unit)
    (severity : CheckerResult) (process : Process) (cd : CollectedData F) :
    List (Request F) × Except Error Unit :=
  match sender with
  | unix sender => sender.send answer severity process cd
  | http sender => sender.send answer severity process cd

/-! ## What is requested -/

/-- The request for a severity that was crossed. -/
def request (sender : SignalSenders) (severity : CheckerResult) (process : Process)
    (cd : CollectedData F) : Request F :=
  match sender with
  | unix sender =>
      .kill process.pid (if severity = .critical then sender.critical else sender.warning)
  | http sender =>
      .post sender.config.url sender.config.headers { severity, process, collectedData := cd }

/-- A severity that was crossed makes one request, and its answer is the outcome. -/
theorem send_crossed (sender : SignalSenders) (answer : Request F → Except Error Unit)
    {severity : CheckerResult} (hcrossed : severity ≠ .none) (process : Process)
    (cd : CollectedData F) :
    sender.send answer severity process cd =
      ([sender.request severity process cd], answer (sender.request severity process cd)) := by
  cases sender with
  | http sender => rfl
  | unix sender =>
      cases severity with
      | none => exact absurd rfl hcrossed
      | warning => rfl
      | critical => rfl

end SignalSenders
end OomHero
