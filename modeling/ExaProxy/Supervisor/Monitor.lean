import ExaProxy.Data.Ring
import ExaProxy.Redirector.Control

namespace ExaProxy.Supervisor

open Data Redirector

/-- What `statistics` reads from the managers and the reactor. -/
structure Gauges where
  savedPid : Bool := false
  norequest : Nat := 0
  byname : Nat := 0
  totalRequested : Nat := 0
  opening : Nat := 0
  established : Nat := 0
  clientSent4 : Nat := 0
  clientSent6 : Nat := 0
  contentSent4 : Nat := 0
  contentSent6 : Nat := 0
  nbLoops : Nat := 0
  nbEvents : Nat := 0
deriving DecidableEq, Repr

structure Statistics where
  pidSaved : Bool
  clientsSilent : Nat
  clientsSpeaking : Nat
  clientsRequests : Nat
  serversOpening : Nat
  serversEstablished : Nat
  transferClient4 : Nat
  transferClient6 : Nat
  transferClient : Nat
  transferContent4 : Nat
  transferContent6 : Nat
  transferContent : Nat
  loadLoops : Nat
  loadEvents : Nat
  queueSize : Nat
  processesForked : Nat
  processesMin : Nat
  processesMax : Nat
deriving DecidableEq, Repr

structure Monitor where
  seconds : List Statistics := []
  minutes : List Statistics := []
deriving DecidableEq, Repr

namespace Monitor

def nbRecorded : Nat := 60

def statistics (gauges : Gauges) (stats : Option Stats) : Statistics where
  pidSaved := gauges.savedPid
  clientsSilent := gauges.norequest
  clientsSpeaking := gauges.byname
  clientsRequests := gauges.totalRequested
  serversOpening := gauges.opening
  serversEstablished := gauges.established
  transferClient4 := gauges.clientSent4
  transferClient6 := gauges.clientSent6
  transferClient := gauges.clientSent4 + gauges.clientSent6
  transferContent4 := gauges.contentSent4
  transferContent6 := gauges.contentSent6
  transferContent := gauges.contentSent4 + gauges.contentSent6
  loadLoops := gauges.nbLoops
  loadEvents := gauges.nbEvents
  queueSize := (stats.map Stats.queue).getD 0
  processesForked := (stats.map Stats.forked).getD 0
  processesMin := (stats.map Stats.min).getD 0
  processesMax := (stats.map Stats.max).getD 0

/-- `zero`, which is given what `statistics` returns: never an empty dictionary. -/
def zero (stats : Statistics) (monitor : Monitor) : Monitor where
  seconds := monitor.seconds ++ [stats]
  minutes := monitor.minutes ++ [stats]

def second (stats : Statistics) (monitor : Monitor) : Bool × Monitor :=
  (true, { monitor with seconds := Ring.push nbRecorded monitor.seconds stats })

def minute (stats : Statistics) (monitor : Monitor) : Bool × Monitor :=
  (true, { monitor with minutes := Ring.push nbRecorded monitor.minutes stats })

end Monitor

/-- The counters of `run`. -/
structure Counts where
  second : Nat := 0
  minute : Nat := 0
  saturation : Nat := 0
  interface : Nat := 0
deriving DecidableEq, Repr

def secondFrequency : Nat := 10
def minuteFrequency : Nat := 600
def saturationFrequency : Nat := 200
def interfaceFrequency : Nat := 3000

namespace Counts

def next (counts : Counts) : Counts where
  second := (counts.second + 1) % secondFrequency
  minute := (counts.minute + 1) % minuteFrequency
  saturation := (counts.saturation + 1) % saturationFrequency
  interface := (counts.interface + 1) % interfaceFrequency

/-- The counters after a number of iterations of the loop. -/
def after (iterations : Nat) : Counts where
  second := iterations % secondFrequency
  minute := iterations % minuteFrequency
  saturation := iterations % saturationFrequency
  interface := iterations % interfaceFrequency

theorem next_after (iterations : Nat) : (after iterations).next = after (iterations + 1) := by
  simp [next, after, Nat.mod_add_mod]

end Counts

/-- `doStats` -/
def doStats (counts : Counts) (stats : Statistics) (monitor : Monitor) : Bool × Monitor :=
  let (ok, monitor) := if counts.second = 0 then monitor.second stats else (true, monitor)
  if ok && counts.minute = 0 then monitor.minute stats else (ok, monitor)

/-- Statistics, with the iteration of `run` in which they were read. -/
abbrev Reading := Nat × Statistics

/-- The statistics that were read in those iterations which are multiples of `frequency`. -/
def recorded (frequency : Nat) (readings : List Reading) : List Statistics :=
  (readings.filter fun reading => reading.1 % frequency = 0).map Prod.snd

/-- What the monitor keeps of the statistics that it began with, and of those that were read. -/
def Records (zero : List Statistics) (readings : List Reading) (monitor : Monitor) : Prop :=
  monitor.seconds = (zero ++ recorded secondFrequency readings).rtake Monitor.nbRecorded ∧
    monitor.minutes = (zero ++ recorded minuteFrequency readings).rtake Monitor.nbRecorded

variable {zero : List Statistics} {readings : List Reading} {monitor : Monitor}

theorem recorded_append (frequency : Nat) (reading : Reading) : recorded frequency (readings ++ [reading]) =
    recorded frequency readings ++ if reading.1 % frequency = 0 then [reading.2] else [] := by
  simp only [recorded, List.filter_append, List.map_append]
  split
  · next due => simp [due]
  · next early => simp [early]

theorem keep_recorded (frequency : Nat) (reading : Reading) :
    (if reading.1 % frequency = 0
      then Ring.push Monitor.nbRecorded ((zero ++ recorded frequency readings).rtake Monitor.nbRecorded) reading.2
      else (zero ++ recorded frequency readings).rtake Monitor.nbRecorded) =
    (zero ++ recorded frequency (readings ++ [reading])).rtake Monitor.nbRecorded := by
  rw [recorded_append]
  split
  · rw [Ring.push_rtake, List.append_assoc]
  · rw [List.append_nil]

/-- `doStats` never fails, and each of its two lists is added to when its counter is zero. -/
theorem doStats_eq (counts : Counts) (stats : Statistics) : doStats counts stats monitor = (true,
    { seconds := if counts.second = 0 then Ring.push Monitor.nbRecorded monitor.seconds stats else monitor.seconds
      minutes := if counts.minute = 0 then Ring.push Monitor.nbRecorded monitor.minutes stats
        else monitor.minutes }) := by
  by_cases second : counts.second = 0
  · by_cases minute : counts.minute = 0 <;> simp [doStats, Monitor.second, Monitor.minute, second, minute]
  · by_cases minute : counts.minute = 0 <;> simp [doStats, Monitor.minute, second, minute]

theorem Records.doStats (records : Records zero readings monitor) (iterations : Nat) (stats : Statistics) :
    Records zero (readings ++ [(iterations, stats)]) (Supervisor.doStats (.after iterations) stats monitor).2 := by
  obtain ⟨seconds, minutes⟩ := records
  rw [doStats_eq, seconds, minutes]
  exact ⟨keep_recorded secondFrequency (iterations, stats), keep_recorded minuteFrequency (iterations, stats)⟩

end ExaProxy.Supervisor
