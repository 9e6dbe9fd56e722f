import TschLearning.DeviceName
import TschLearning.Network
import TschLearning.Tally

/-! Transmission statistics: attempts and successes by device and by channel. -/

namespace TschLearning

/-- Counts of the transmissions of a network. -/
structure Statistics where
  attempts : Roster
  successes : Roster
  channelAttempts : Tally Int
  channelSuccesses : Tally Int

namespace Statistics

def label : String := "TransmissionStatistics"

def empty : Statistics := ⟨.empty, .empty, .empty, .empty⟩

def count (s : Statistics) (device : DeviceName) (spelling : Datum) (channel : Int)
    (success : Bool) : Statistics where
  attempts := s.attempts.bump device spelling
  channelAttempts := s.channelAttempts.bump channel
  successes := if success then s.successes.bump device spelling else s.successes
  channelSuccesses := if success then s.channelSuccesses.bump channel else s.channelSuccesses

/-- Counts the transmission of a record. The sender has to have a name to count under. -/
def add (s : Statistics) (r : TransmissionRecord Nat) : Except Fault Statistics :=
  match DeviceName.ofDatum? r.sender r.senderName with
  | some device => .ok (s.count device r.senderName r.channel r.success)
  | none => .error .unhashable

def totalAttempts (s : Statistics) : Nat := s.attempts.total

def totalSuccesses (s : Statistics) : Nat := s.successes.total

def successRate (s : Statistics) : Float :=
  TschLearning.successRate s.totalSuccesses s.totalAttempts

def channelLe (a b : Int) : Bool := decide (a ≤ b)

/-- Successes and attempts of every channel in use, in ascending order. -/
def byChannel (s : Statistics) : List (Int × Nat × Nat) :=
  (s.channelAttempts.sorted channelLe).map fun e => (e.1, s.channelSuccesses.count e.1, e.2)

/-- Successes and attempts of every device that transmitted, in ascending order. -/
def byDevice (s : Statistics) : List (Datum × Nat × Nat) :=
  s.attempts.names.map fun e => (e.2, s.successes.count e.1, s.attempts.count e.1)

/-- The share of successes of every channel in use. -/
def channelSuccessRates (s : Statistics) : List (Int × Float) :=
  s.byChannel.map fun e => (e.1, TschLearning.successRate e.2.1 e.2.2)

/-- What the statistics say when they are logged. -/
def remarks (s : Statistics) : List Remark :=
  s.byDevice.map (fun e => .deviceRate e.1 e.2.1 e.2.2)
    ++ s.byChannel.map (fun e => .channelRate e.1 e.2.1 e.2.2)
    ++ [.totalRate s.totalSuccesses s.totalAttempts]

/-- Whether the devices that transmitted can be listed in order. -/
def isLoggable (s : Statistics) : Bool := Roster.haveOrder s.attempts.spellings

/-- Logs the statistics, which takes device names that have an order. -/
def log {σ : Type} [Journal σ] (s : Statistics) : Action σ Unit := do
  if !s.isLoggable then throw .incomparable
  s.remarks.forM fun r => Action.note (.ofComponent .statistics label r)

/-- Whether all counts by device can be listed in order. -/
def isListable (s : Statistics) : Bool :=
  Roster.haveOrder s.attempts.counted && Roster.haveOrder s.successes.counted

/-- The statistics once they have been logged: every attempt has its spelling among the successes
too. -/
def logged (s : Statistics) : Statistics :=
  { s with successes := s.attempts.names.foldl (fun r e => r.spell e.1 e.2) s.successes }

end Statistics
end TschLearning
