import OomHero.Daemons.NonInterference
import OomHero.Processes.Collect
import OomHero.Processes.Footprint
import OomHero.Processes.Listing
import OomHero.Signals

/-!
# The program

What {lit}`main` puts together from the flags, from the files a pass reads to the requests
it makes.  What the environment contributes to a pass comes as input: what the procfs
lists, what files hold when they are read, the version of the cgroups that the kernel reports
each time, the readings of the clock, the answers to the requests, and what the cache loses
and evicts.

Main results:

- Theorem {lit}`Program.main_requests`: every request is one the flags ask for, about a
  process that the procfs lists and whose files crossed the threshold of its severity.
- Theorem {lit}`Program.kills_single`: no signal goes to a group of processes.
- Theorem {lit}`Program.attempts_eq_of_alike`: the sends to a process depend on its own
  files and on the version of the cgroups only.
-/

namespace OomHero

/-- What the environment contributes to the turn of a listed process. -/
structure Turn (F : Type) where
  files : FileSystem
  collectedAt : Nat
  reportedAt : Nat
  lost : List Int32
  checkedAt : Nat
  startedAt : Nat
  answer : Request F → Except Error Unit
  victim : Nat

/-- What the environment contributes to a pass.  Every listed process has a turn by its
place in the list. -/
structure Sweep (F : Type) where
  /-- Whether the stop channel has a message or is closed. -/
  stop : Bool
  readDir : ReadDir
  cmdlines : Contents
  turns : Nat → Turn F
  endedAt : Nat
  resetAt : Nat

/-- What {lit}`main` puts together. -/
structure Program (V : Type) where
  engine : Fasteval V
  thresholdsChecker : ThresholdsChecker V
  system : SystemCGroups
  signalSender : SignalSenders
  loopInterval : Nat
  cooldownInterval : Nat
  oomheroPid : Int32

variable {F V : Type}

namespace Program

variable [F32 F] [F64 V] [Widen F V]

/-- The monitor of the program. -/
def monitor (g : Program V) : Monitor F :=
  ((Monitor.new (g.thresholdsChecker.against g.engine) g.oomheroPid).withCooldownInterval
    g.cooldownInterval).withLoopInterval g.loopInterval

/-- What collecting the data of a process yields in its turn. -/
def collect (g : Program V) (turn : Turn F) (pid : Int32) : Except Error (CollectedData F) :=
  ((g.system.reader.collectProcessData pid).exec turn.files []).1

/-- The visit of a listed process.  A process that crossed no threshold is sent nothing. -/
def visit (g : Program V) (process : Process) (turn : Turn F) : Visit F where
  process := process
  collected := g.collect turn process.pid
  collectedAt := turn.collectedAt
  reportedAt := turn.reportedAt
  lost := turn.lost
  checkedAt := turn.checkedAt
  startedAt := turn.startedAt
  outcome :=
    match g.collect turn process.pid with
    | .error _ => .ok ()
    | .ok data =>
        match g.thresholdsChecker.against g.engine data with
        | .error _ => .ok ()
        | .ok severity => (g.signalSender.send turn.answer severity process data).2
  victim := turn.victim

/-- The listed processes with their turns. -/
def listed (g : Program V) (s : Sweep F) : Except Error (List (Process × Turn F)) :=
  (g.system.reader.list s.readDir s.cmdlines).map fun processes =>
    processes.zipIdx.map fun process => (process.1, s.turns process.2)

/-- The pass of the monitor. -/
def pass (g : Program V) (s : Sweep F) : Pass F where
  stop := s.stop
  listed := (g.listed s).map fun turns => turns.map fun turn => g.visit turn.1 turn.2
  endedAt := s.endedAt
  resetAt := s.resetAt

/-- The sends of a run. -/
def attempts (g : Program V) (startedAt : Nat) (sweeps : List (Sweep F)) : List (Attempt F) :=
  g.monitor.attempts startedAt (sweeps.map g.pass)

/-- The requests of a run. -/
def requests (g : Program V) (startedAt : Nat) (sweeps : List (Sweep F)) : List (Request F) :=
  (g.attempts startedAt sweeps).flatMap fun a =>
    (g.signalSender.send (fun _ => a.outcome) a.severity a.process a.data).1

/-! ## Two workers -/

/-- The program they ask for. -/
def scoreProgram : Program Int where
  engine := sampleFasteval
  thresholdsChecker := ⟨moreThan "oom_score" 0, moreThan "oom_score" 1⟩
  system := default
  signalSender := .unix default
  loopInterval := fromMillis 100
  cooldownInterval := fromSecs 30
  oomheroPid := 99

/-- A pass that lists two workers on version 1 cgroups.  All files hold a one, apart from those
of the second. -/
def workersSweep (content : String) : Sweep Whole where
  stop := false
  readDir := fun _ => .ok [.ok ⟨some "5", .ok true⟩, .ok ⟨some "self", .ok true⟩,
    .ok ⟨some "6", .ok true⟩]
  cmdlines := fun _ _ => .ok "worker"
  turns := fun _ =>
    { files :=
        { contents := fun _ path =>
            if scoreProgram.system.IsWithin 6 path then .ok content else .ok "1"
          statfs := fun _ _ => .ok 0 }
      collectedAt := 0
      reportedAt := 0
      lost := []
      checkedAt := 0
      startedAt := 0
      answer := fun _ => .ok ()
      victim := 0 }
  endedAt := 0
  resetAt := 0

end Program

/-! ## Where requests come from -/

/-- Every send is the call of a visit, in a pass before the monitor stops. -/
theorem Monitor.exists_visit_of_attempt [F32 F] {m : Monitor F} {startedAt : Nat}
    {passes : List (Pass F)} {a : Attempt F} (h : a ∈ m.attempts startedAt passes) :
    ∃ p ∈ passes, p.stop = false ∧ ∃ visits, p.listed = .ok visits ∧
      ∃ v ∈ visits, ∃ c, m.call? v = some c ∧ c.attempt = a := by
  rw [(m.run_gate startedAt passes).2] at h
  obtain ⟨c, hpassed, rfl⟩ := List.mem_map.mp h
  have hcall := (m.gate.passed_sublist _).subset hpassed
  obtain ⟨p, hp, hc⟩ := List.mem_flatMap.mp hcall
  have hrunning := List.mem_takeWhile_imp hp
  refine ⟨p, List.takeWhile_subset _ hp, by simpa using hrunning, ?_⟩
  unfold passCalls at hc
  cases hlisted : p.listed with
  | error err =>
      rw [hlisted] at hc
      cases hc
  | ok visits =>
      rw [hlisted] at hc
      obtain ⟨v, hv, hcall⟩ := List.mem_filterMap.mp hc
      exact ⟨visits, rfl, v, hv, c, hcall, rfl⟩

namespace Program

variable [F32 F] [F64 V] [Widen F V]

/-- What justifies a request: the procfs lists its process in some pass, which is neither
the pause container nor the program itself, and the data its files hold in its turn match
the critical expression, or else the warning expression. -/
structure Justified (g : Program V) (sweeps : List (Sweep F)) (severity : CheckerResult)
    (process : Process) (data : CollectedData F) : Prop where
  pause : process.pid ≠ 1
  own : process.pid ≠ g.oomheroPid
  collected : ∃ s ∈ sweeps, s.stop = false ∧ ∃ turns, g.listed s = .ok turns ∧
    ∃ turn, (process, turn) ∈ turns ∧ g.collect turn process.pid = .ok data
  crossed :
    (severity = .critical ∧
        ThresholdsChecker.Matches g.engine data g.thresholdsChecker.critical) ∨
      (severity = .warning ∧
        ¬ ThresholdsChecker.Matches g.engine data g.thresholdsChecker.critical ∧
          ThresholdsChecker.Matches g.engine data g.thresholdsChecker.warning)

omit [F64 V] [Widen F V] in
/-- The data of a turn are what the reads of it find. -/
theorem collect_eq_ok_iff (g : Program V) (turn : Turn F) (pid : Int32)
    (data : CollectedData F) :
    g.collect turn pid = .ok data ↔ g.system.reader.Finds pid turn.files data := by
  rw [← ProcFsReader.collectProcessData_eq_ok_iff]
  constructor
  · intro h
    exact ⟨_, Prod.ext h rfl⟩
  · rintro ⟨log, hlog⟩
    exact congrArg Prod.fst hlog

/-- Every send is of data collected in the turn of a listed process, and of a severity they
were found to have. -/
theorem exists_turn_of_attempt {g : Program V} {startedAt : Nat} {sweeps : List (Sweep F)}
    {a : Attempt F} (ha : a ∈ g.attempts startedAt sweeps) :
    a.process.pid ≠ 1 ∧ a.process.pid ≠ g.oomheroPid ∧ a.severity ≠ .none ∧
      g.thresholdsChecker.against g.engine a.data = .ok a.severity ∧
        ∃ s ∈ sweeps, s.stop = false ∧ ∃ turns, g.listed s = .ok turns ∧
          ∃ turn, (a.process, turn) ∈ turns ∧ g.collect turn a.process.pid = .ok a.data := by
  obtain ⟨p, hp, hrunning, visits, hvisits, v, hv, c, hcall, rfl⟩ :=
    Monitor.exists_visit_of_attempt ha
  obtain ⟨s, hs, rfl⟩ := List.mem_map.mp hp
  obtain ⟨hpause, hown, data, severity, hcollected, hevaluated, hcrossed, rfl⟩ :=
    (g.monitor.call?_eq_some_iff v c).mp hcall
  cases hlisted : g.listed s with
  | error err => simp [pass, hlisted, Except.map] at hvisits
  | ok turns =>
      have hturns : turns.map (fun turn => g.visit turn.1 turn.2) = visits := by
        simpa [pass, hlisted, Except.map] using hvisits
      rw [← hturns] at hv
      obtain ⟨⟨process, turn⟩, hturn, rfl⟩ := List.mem_map.mp hv
      exact ⟨hpause, hown, hcrossed, hevaluated, s, hs, hrunning, turns, hlisted, turn, hturn,
        hcollected⟩

/-- Every send is justified. -/
theorem justified_of_attempt {g : Program V} {startedAt : Nat} {sweeps : List (Sweep F)}
    {a : Attempt F} (ha : a ∈ g.attempts startedAt sweeps) :
    g.Justified sweeps a.severity a.process a.data := by
  obtain ⟨hpause, hown, hcrossed, hevaluated, hcollected⟩ := exists_turn_of_attempt ha
  have hchecker := g.thresholdsChecker.against_eq_iff g.engine a.data
  refine ⟨hpause, hown, hcollected, ?_⟩
  cases hseverity : a.severity with
  | none => exact absurd hseverity hcrossed
  | critical => exact Or.inl ⟨rfl, hchecker.1.mp (hseverity ▸ hevaluated)⟩
  | warning => exact Or.inr ⟨rfl, (hchecker.2.mp (hseverity ▸ hevaluated)).2⟩

/-- So is every request. -/
theorem requests_justified {g : Program V} {startedAt : Nat} {sweeps : List (Sweep F)}
    {request : Request F} (hrequest : request ∈ g.requests startedAt sweeps) :
    ∃ severity process data, g.Justified sweeps severity process data ∧
      request = g.signalSender.request severity process data := by
  obtain ⟨a, ha, hrequest⟩ := List.mem_flatMap.mp hrequest
  have hcrossed := (exists_turn_of_attempt ha).2.2.1
  refine ⟨a.severity, a.process, a.data, justified_of_attempt ha, ?_⟩
  rw [g.signalSender.send_crossed (fun _ => a.outcome) hcrossed a.process a.data] at hrequest
  exact List.mem_singleton.mp hrequest

/-- Where the names of the procfs are the numbers of processes, every signal goes to one
process, which is neither the pause container nor the program itself. -/
theorem kills_single (g : Program V) (startedAt : Nat) (sweeps : List (Sweep F))
    (hpids : ∀ s ∈ sweeps, ∀ entries, s.readDir g.system.procfsRoot = .ok entries →
      ∀ entry ∈ entries, ∀ pid, ProcFsReader.IsDirectoryOf entry pid → 0 < pid)
    (pid : Int32) (signal : Signal) (h : .kill pid signal ∈ g.requests startedAt sweeps) :
    1 < pid ∧ pid ≠ g.oomheroPid ∧ ∃ sender, g.signalSender = .unix sender ∧
      (signal = sender.warning ∨ signal = sender.critical) := by
  obtain ⟨severity, process, data, hjustified, hrequest⟩ := requests_justified h
  obtain ⟨s, hs, -, turns, hturns, turn, hturn, -⟩ := hjustified.collected
  have hpositive : 0 < process.pid := by
    unfold listed at hturns
    cases hlist : g.system.reader.list s.readDir s.cmdlines with
    | error err => simp [hlist, Except.map] at hturns
    | ok processes =>
        simp only [hlist, Except.map, Except.ok.injEq] at hturns
        rw [← hturns] at hturn
        obtain ⟨⟨listed, k⟩, hlisted, heq⟩ := List.mem_map.mp hturn
        have hprocess : listed = process := congrArg Prod.fst heq
        have hmem : process ∈ processes := by
          rw [← hprocess, (List.mem_zipIdx' hlisted).2]
          exact List.getElem_mem _
        obtain ⟨entries, hentries, entry, hentry, hdirectory⟩ := ProcFsReader.mem_list hlist hmem
        exact hpids s hs entries hentries entry hentry process.pid hdirectory
  cases hsender : g.signalSender with
  | http sender =>
      rw [hsender] at hrequest
      cases hrequest
  | unix sender =>
      rw [hsender] at hrequest
      cases hrequest
      refine ⟨?_, hjustified.own, sender, rfl, ?_⟩
      · have hpause := hjustified.pause
        rw [Int32.lt_iff_toInt_lt] at hpositive ⊢
        have hne : process.pid.toInt ≠ 1 := fun heq => hpause (Int32.toInt_inj.mp heq)
        have hzero : (0 : Int32).toInt = 0 := rfl
        have hone : (1 : Int32).toInt = 1 := rfl
        omega
      · split
        · exact Or.inr rfl
        · exact Or.inl rfl

/-- The first worker is warned. -/
theorem worker_killed_single :
    1 < (5 : Int32) ∧ (5 : Int32) ≠ scoreProgram.oomheroPid ∧
      ∃ sender, scoreProgram.signalSender = .unix sender ∧
        (Signal.sigusr1 = sender.warning ∨ Signal.sigusr1 = sender.critical) := by
  refine scoreProgram.kills_single 0 [workersSweep "0"] ?_ 5 .sigusr1 (by decide +kernel)
  intro s hs entries hentries entry hentry pid hdirectory
  obtain ⟨name, rfl, hpid⟩ := hdirectory
  have hnames : name = "5" ∨ name = "self" ∨ name = "6" := by
    rw [List.mem_singleton.mp hs] at hentries
    cases hentries
    simpa using hentry
  have hfive : Decimal.parseI32 "5" = .ok 5 := by decide +kernel
  have hself : (Decimal.parseI32 "self").isOk = false := by decide +kernel
  have hsix : Decimal.parseI32 "6" = .ok 6 := by decide +kernel
  rcases hnames with rfl | rfl | rfl
  · rw [hfive] at hpid
    cases hpid
    decide
  · rw [hpid] at hself
    cases hself
  · rw [hsix] at hpid
    cases hpid
    decide

end Program

/-! ## What a process depends on -/

/-- A call without the choices of the cache. -/
def Call.blind (c : Call F) : Call F :=
  { c with lost := [], victim := 0 }

namespace Monitor

variable {m : Monitor F}

/-- A call depends on what its visit finds, on two readings of the clock and on the
outcome. -/
theorem call?_blind {v v' : Visit F} (hprocess : v.process = v'.process)
    (hcollected : v.collected = v'.collected) (hchecked : v.checkedAt = v'.checkedAt)
    (hstarted : v.startedAt = v'.startedAt) (houtcome : v.outcome = v'.outcome) :
    (m.call? v).map Call.blind = (m.call? v').map Call.blind := by
  have hcall : ∀ severity data,
      (v.call severity data).blind = (v'.call severity data).blind := by
    intro severity data
    unfold Visit.call Call.blind
    rw [hprocess, hchecked, hstarted, houtcome]
  unfold call?
  rw [hprocess, hcollected]
  split
  · rfl
  · cases v'.collected with
    | error err => rfl
    | ok data =>
        dsimp only
        cases m.thresholds data with
        | error err => rfl
        | ok severity =>
            cases severity with
            | none => rfl
            | warning => exact congrArg some (hcall _ _)
            | critical => exact congrArg some (hcall _ _)

/-- While the cache is a plain map the sends to a pid are decided by its calls, and not by
what the cache would choose to evict. -/
theorem attempts_of_pid [F32 F] {startedAt : Nat} {passes : List (Pass F)}
    (hplain : m.PlainMap (m.calls passes)) (pid : Int32) :
    ((m.attempts startedAt passes).filter fun a => a.process.pid = pid) =
      (m.gate.passed m.maxCapacity
        (((m.calls passes).filter fun c => c.process.pid = pid).map Call.blind)).map
          Call.attempt := by
  have halone : m.PlainMap ((m.calls passes).filter fun c => c.process.pid = pid) :=
    hplain.of_subset fun c hc => List.mem_of_mem_filter hc
  have hblind : m.PlainMap
      (((m.calls passes).filter fun c => c.process.pid = pid).map Call.blind) := by
    refine ⟨?_, ?_⟩
    · rw [List.map_map]
      exact halone.fewPids
    · intro c hc
      obtain ⟨c, -, rfl⟩ := List.mem_map.mp hc
      rfl
  have hpassed := Gate.passed_filter_key (g := m.gate) hplain.retains pid
  have hmap : m.gate.passed m.maxCapacity
      (((m.calls passes).filter fun c => c.process.pid = pid).map Call.blind) =
        (m.gate.passed m.maxCapacity
          ((m.calls passes).filter fun c => c.process.pid = pid)).map Call.blind :=
    Gate.passed_map (fun _ => rfl) (fun _ => rfl) (fun _ _ => rfl) halone.retains hblind.retains
  rw [(m.run_gate startedAt passes).2, List.filter_map, hmap, List.map_map]
  exact congrArg (List.map Call.attempt) hpassed

end Monitor

/-- Two turns that are the same to a process whose files are at some paths. -/
structure Turn.Alike (P : String → Prop) (turn turn' : Turn F) : Prop where
  files : Io.AgreeOn P turn.files turn'.files
  checkedAt : turn.checkedAt = turn'.checkedAt
  startedAt : turn.startedAt = turn'.startedAt
  answer : turn.answer = turn'.answer

namespace Program

variable [F32 F] [F64 V] [Widen F V]

/-- The turns of a pid in a pass. -/
def observed (g : Program V) (pid : Int32) (s : Sweep F) : List (Process × Turn F) :=
  match g.listed s with
  | .error _ => []
  | .ok turns => turns.filter fun turn => turn.1.pid = pid

/-- Two passes that are the same to a process.  Which other processes they list, what the
files of those hold and what is sent to them may differ. -/
structure Alike (g : Program V) (pid : Int32) (s s' : Sweep F) : Prop where
  stop : s.stop = s'.stop
  observed : List.Forall₂
    (fun o o' => o.1 = o'.1 ∧ Turn.Alike (g.system.IsWithin pid) o.2 o'.2)
    (g.observed pid s) (g.observed pid s')

/-- The calls for a pid in a pass, without the choices of the cache. -/
def callsOf (g : Program V) (pid : Int32) (s : Sweep F) : List (Call F) :=
  (g.observed pid s).filterMap fun o => (g.monitor.call? (g.visit o.1 o.2)).map Call.blind

theorem passCalls_of_pid (g : Program V) (pid : Int32) (s : Sweep F) :
    (g.monitor.passCalls ((g.pass s).only pid)).map Call.blind = g.callsOf pid s := by
  unfold Monitor.passCalls callsOf observed Pass.only pass
  cases g.listed s with
  | error err => rfl
  | ok turns =>
      dsimp only [Except.map]
      rw [List.filter_map, List.filterMap_map, List.map_filterMap]
      rfl

theorem calls_of_pid (g : Program V) (pid : Int32) (sweeps : List (Sweep F)) :
    ((g.monitor.calls (sweeps.map g.pass)).filter fun c => c.process.pid = pid).map Call.blind =
      (sweeps.takeWhile fun s => !s.stop).flatMap (g.callsOf pid) := by
  rw [← Monitor.calls_only]
  unfold Monitor.calls
  rw [List.takeWhile_map, List.takeWhile_map, List.flatMap_map, List.flatMap_map,
    List.map_flatMap]
  apply List.flatMap_congr
  intro s _
  exact g.passCalls_of_pid pid s

/-- A pass that is the same to a process makes the same calls for it. -/
theorem callsOf_eq_of_alike {g : Program V} {pid : Int32} {s s' : Sweep F}
    (h : g.Alike pid s s') : g.callsOf pid s = g.callsOf pid s' := by
  have hpids : ∀ o ∈ g.observed pid s, o.1.pid = pid := by
    intro o ho
    unfold observed at ho
    split at ho
    · cases ho
    · simpa using (List.mem_filter.mp ho).2
  have hobserved := h.observed
  unfold callsOf
  generalize g.observed pid s = turns, g.observed pid s' = turns' at hpids hobserved
  induction hobserved with
  | nil => rfl
  | @cons o o' turns turns' hfirst hrest ih =>
      obtain ⟨hprocess, halike⟩ := hfirst
      have hown : o.1.pid = pid := hpids o List.mem_cons_self
      have hlocal := ProcFsReader.local_collectProcessData (F := F) (r := g.system.reader)
        (g.system.provider_within pid)
      have hcollect : g.collect o.2 o.1.pid = g.collect o'.2 o'.1.pid := by
        unfold collect
        rw [← hprocess, hown, hlocal.same halike.files []]
      have houtcome : (g.visit o.1 o.2).outcome = (g.visit o'.1 o'.2).outcome := by
        unfold visit
        rw [hcollect, hprocess, halike.answer]
      have hcall : (g.monitor.call? (g.visit o.1 o.2)).map Call.blind =
          (g.monitor.call? (g.visit o'.1 o'.2)).map Call.blind :=
        Monitor.call?_blind hprocess hcollect halike.checkedAt halike.startedAt houtcome
      rw [List.filterMap_cons, List.filterMap_cons, hcall,
        ih fun o ho => hpids o (List.mem_cons_of_mem _ ho)]

/-- So does a run of them. -/
theorem calls_eq_of_alike {g : Program V} {pid : Int32} {sweeps sweeps' : List (Sweep F)}
    (h : List.Forall₂ (g.Alike pid) sweeps sweeps') :
    (sweeps.takeWhile fun s => !s.stop).flatMap (g.callsOf pid) =
      (sweeps'.takeWhile fun s => !s.stop).flatMap (g.callsOf pid) := by
  induction h with
  | nil => rfl
  | @cons s s' sweeps sweeps' hfirst hrest ih =>
      rw [List.takeWhile_cons, List.takeWhile_cons, hfirst.stop]
      split
      · rw [List.flatMap_cons, List.flatMap_cons, callsOf_eq_of_alike hfirst, ih]
      · rfl

/-- While the cache is a plain map, what is sent to a process, and when, depends on its own
files, turns and answers and on the version of the cgroups only: two runs that are the same
to it send it the same, whatever else is running and whatever the cache would evict. -/
theorem attempts_eq_of_alike (g : Program V) (startedAt startedAt' : Nat)
    (sweeps sweeps' : List (Sweep F)) (pid : Int32)
    (halike : List.Forall₂ (g.Alike pid) sweeps sweeps')
    (hplain : g.monitor.PlainMap (g.monitor.calls (sweeps.map g.pass)))
    (hplain' : g.monitor.PlainMap (g.monitor.calls (sweeps'.map g.pass))) :
    ((g.attempts startedAt sweeps).filter fun a => a.process.pid = pid) =
      (g.attempts startedAt' sweeps').filter fun a => a.process.pid = pid := by
  unfold attempts
  rw [Monitor.attempts_of_pid hplain pid, Monitor.attempts_of_pid hplain' pid, calls_of_pid,
    calls_of_pid, calls_eq_of_alike halike]

omit [F32 F] [F64 V] [Widen F V] in
/-- Passes with the same list are the same to a process if its turns are. -/
theorem alike_of_same_list (g : Program V) (pid : Int32) {s s' : Sweep F}
    (hstop : s.stop = s'.stop) (hdir : s.readDir = s'.readDir)
    (hcmdlines : s.cmdlines = s'.cmdlines)
    (hturns : ∀ k, Turn.Alike (g.system.IsWithin pid) (s.turns k) (s'.turns k)) :
    g.Alike pid s s' := by
  refine ⟨hstop, ?_⟩
  unfold observed listed
  rw [hdir, hcmdlines]
  cases g.system.reader.list s'.readDir s'.cmdlines with
  | error err => exact .nil
  | ok processes =>
      dsimp only [Except.map]
      induction processes.zipIdx with
      | nil => exact .nil
      | cons process rest ih =>
          rw [List.map_cons, List.map_cons, List.filter_cons, List.filter_cons]
          by_cases hpid : process.1.pid = pid
          · simp only [hpid, decide_true, if_true]
            exact .cons ⟨rfl, hturns process.2⟩ ih
          · simp only [hpid, decide_false, Bool.false_eq_true, if_false]
            exact ih

/-- What the files of the second worker hold makes no difference to the first. -/
theorem worker_attempts_eq :
    ((scoreProgram.attempts 0 [workersSweep "0"]).filter fun a => a.process.pid = 5) =
      (scoreProgram.attempts 0 [workersSweep "2"]).filter fun a => a.process.pid = 5 := by
  have halike : scoreProgram.Alike 5 (workersSweep "0") (workersSweep "2") := by
    refine scoreProgram.alike_of_same_list 5 rfl rfl rfl fun k =>
      ⟨⟨?_, fun _ _ => rfl⟩, rfl, rfl, rfl⟩
    intro k path hpath
    have hown : ¬ scoreProgram.system.IsWithin 6 path :=
      fun h => absurd (SystemCGroups.eq_of_within h hpath) (by decide)
    dsimp only [workersSweep]
    rw [if_neg hown, if_neg hown]
  exact scoreProgram.attempts_eq_of_alike 0 0 [workersSweep "0"] [workersSweep "2"] 5
    (.cons halike .nil) (by decide +kernel) (by decide +kernel)

end Program
end OomHero
