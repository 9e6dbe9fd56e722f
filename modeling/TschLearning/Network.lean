import TschLearning.Interference
import TschLearning.Mac
import TschLearning.Notifier

/-! A network of devices, slot by slot. In every slot each device that has a channel for
it and a frame in its queue transmits. A transmission fails if another device transmits
on the same channel, or else with the channel's failure probability.

The events of a slot come in this order: the slot boundary at every sink, then for each
transmission its outcome at the sink of the sender and at the observers, then overheard
activity at the sinks of the devices that did not transmit. -/

namespace TschLearning

/-- How a transmission is confirmed. -/
inductive MacStatus where
  | success | noAck | channelAccessFailure
deriving DecidableEq, Repr

namespace MacStatus

def name : MacStatus → String
  | .success => "SUCCESS"
  | .noAck => "NO_ACK"
  | .channelAccessFailure => "CHANNEL_ACCESS_FAILURE"

end MacStatus

structure TransmissionRecord (μ : Type) where
  asn : Nat
  slot : Datum
  channel : Int
  sender : μ
  senderName : Datum
  status : MacStatus

namespace TransmissionRecord

variable {μ : Type}

def success (r : TransmissionRecord μ) : Bool := r.status == .success

def label (r : TransmissionRecord μ) : String :=
  s!"TransmissionRecord(asn={r.asn}, slot=" ++ r.slot.written ++ s!", channel={r.channel}, sender="
    ++ Mac.labelOf r.senderName ++ ", status=" ++ r.status.name ++ ")"

end TransmissionRecord

/-- A network; `μ` are the handles of its devices and `ο` those of its observers. The
dimensions are kept as they were handed over; a duration or a probability that is no number
fails where it is needed. -/
structure Network (μ ο α : Type) where
  slots : Datum
  channels : Datum
  interference : Interference α
  slotDuration : Except Fault Number
  -- the probability that a device gets a frame of its own in a slot that it has a channel for
  traffic : Except Fault α
  macs : List μ
  asn : Nat
  started : Bool
  observers : Notifier ο

/-- What a network needs from outside; `κ` are the handles of sinks. -/
structure Surroundings (μ κ ο σ α : Type) where
  macs : Shelf μ (Mac κ) σ
  draws : Draws σ α
  boundary : κ → Nat → Action σ Unit
  outcome : κ → Datum → Int → Bool → Action σ Unit
  overheard : κ → Datum → Action σ Unit
  observe : ο → TransmissionRecord μ → Action σ Unit

namespace Network

variable {μ κ ο σ α : Type}

def label : String := "TschNetwork"
def ownerLabel : String := "<TschNetwork>"

/-- A network without devices; without a model there is no interference. -/
def create [Arith α] (slots channels : Datum) (interference : Option (Interference α))
    (slotDuration : Except Fault Number) (traffic : Except Fault α) :
    Except Fault (Network μ ο α) := do
  let interference ← match interference with
    | some m => pure m
    | none => Interference.clear channels
  if !Datum.same (.int interference.channels) channels then
    throw (.interferenceCoverage interference.channels channels)
  return { slots, channels, interference, slotDuration, traffic, macs := [], asn := 0,
           started := false,
           observers := .create (.text "transmission") (possessive ownerLabel) }

/-- Adds a device, whose slotframe has to be that of the network. -/
def addMac (net : Network μ ο α) (handle : μ) (mac : Mac κ) : Except Fault (Network μ ο α) :=
  if Datum.same mac.slots net.slots && Datum.same mac.channels net.channels then
    .ok { net with macs := net.macs ++ [handle] }
  else .error (.foreignSlotframe mac.label)

/-- The slot of a slotframe that an absolute slot number falls into. -/
def slotAt (slots : Datum) (asn : Nat) : Except Fault Datum :=
  match slots.number? with
  | none => .error .notNumeric
  | some n =>
    match Number.remainder? asn n with
    | some slot => .ok (.ofNumber slot)
    | none => .error .divisionByZero

/-- Tells every device the number of the slot. -/
def announce (env : Surroundings μ κ ο σ α) (asn : Nat) : List μ → Action σ Unit
  | [] => pure ()
  | m :: rest => do
    env.macs.update m fun mac => .ok ((), { mac with asn := some asn })
    announce env asn rest

def sinksOf (env : Surroundings μ κ ο σ α) : List μ → Action σ (List κ)
  | [] => pure []
  | m :: rest => do
    let mac ← env.macs.read m
    return mac.sink.toList ++ (← sinksOf env rest)

/-- Delivers the start of a slot to sinks in turn. -/
def deliverBoundary (env : Surroundings μ κ ο σ α) (asn : Nat) : List κ → Action σ Unit
  | [] => pure ()
  | k :: rest => do
    env.boundary k asn
    deliverBoundary env asn rest

variable [DecidableEq μ] [DecidableEq κ] [Arith α] [Journal σ]

omit [DecidableEq μ] [DecidableEq κ] [Journal σ] in
/-- Lets a device that has a channel for the slot get a frame of its own. -/
def generate (env : Surroundings μ κ ο σ α) (traffic : Except Fault α) (m : μ) :
    Action σ Unit := do
  let traffic ← Action.ofExcept traffic
  if Arith.lt 0 traffic then
    if Arith.lt (← env.draws.uniform) traffic then
      env.macs.update m fun mac => .ok ((), mac.request .null (.int 0))

omit [DecidableEq μ] [DecidableEq κ] [Journal σ] in
/-- The devices that transmit in a slot, each with its channel. Their frames leave the
queues. -/
def transmitters (env : Surroundings μ κ ο σ α) (traffic : Except Fault α) (slot : Datum) :
    List μ → Action σ (List (μ × Int))
  | [] => pure []
  | m :: rest => do
    match ← Action.ofExcept ((← env.macs.read m).channelFor slot) with
    | none => transmitters env traffic slot rest
    | some channel =>
      generate env traffic m
      let frame ← env.macs.update m fun mac => .ok mac.popFrame
      let others ← transmitters env traffic slot rest
      return if frame.isSome then (m, channel) :: others else others

omit [DecidableEq κ] [DecidableEq μ] in
/-- How a transmission is confirmed; `rivals` is the number of devices on its channel. -/
def statusOf (env : Surroundings μ κ ο σ α) (net : Network μ ο α) (slot : Datum) (sender : String)
    (channel : Int) (rivals : Nat) : Action σ MacStatus := do
  if 1 < rivals then
    Action.note (.ofComponent .mac sender (.collision slot channel))
    return .noAck
  else if ← net.interference.disturbed env.draws (.int channel) then
    return .noAck
  else
    return .success

omit [DecidableEq κ] [DecidableEq μ] in
/-- Confirms transmissions in turn. -/
def confirm (env : Surroundings μ κ ο σ α) (net : Network μ ο α) (slot : Datum)
    (all : List (μ × Int)) : List (μ × Int) → Action σ Unit
  | [] => pure ()
  | (m, channel) :: rest => do
    let mac ← env.macs.read m
    let status ← statusOf env net slot mac.label channel (all.countP (·.2 == channel))
    let record : TransmissionRecord μ :=
      { asn := net.asn, slot, channel, sender := m, senderName := mac.name, status }
    if let some k := mac.sink then env.outcome k slot channel record.success
    net.observers.trigger (.text record.label) (env.observe · record)
    confirm env net slot all rest

omit [DecidableEq κ] [Arith α] [Journal σ] in
/-- Delivers overheard activity to the sinks of the devices that did not transmit. -/
def deliverOverheard (env : Surroundings μ κ ο σ α) (slot : Datum) (senders : List μ) :
    List μ → Action σ Unit
  | [] => pure ()
  | m :: rest => do
    let mac ← env.macs.read m
    if let some k := mac.sink then
      if m ∉ senders then env.overheard k slot
    deliverOverheard env slot senders rest

def runSlot (env : Surroundings μ κ ο σ α) (net : Network μ ο α) : Action σ (Network μ ο α) := do
  let slot ← Action.ofExcept (slotAt net.slots net.asn)
  announce env net.asn net.macs
  deliverBoundary env net.asn (← sinksOf env net.macs).eraseDups
  let transmissions ← transmitters env net.traffic slot net.macs
  confirm env net slot transmissions transmissions
  if !transmissions.isEmpty then
    deliverOverheard env slot (transmissions.map (·.1)) net.macs
  return { net with asn := net.asn + 1 }

def advance (env : Surroundings μ κ ο σ α) : Action (Network μ ο α × σ) Unit := do
  let next ← (runSlot env (← Action.part)).outside
  Action.change fun _ => next

def runSlots (env : Surroundings μ κ ο σ α) : Nat → Action (Network μ ο α × σ) Unit
  | 0 => pure ()
  | n + 1 => do
    advance env
    runSlots env n

end Network
end TschLearning
