import TschLearning.Testbed.Running

/-! The ready-made simulations, run in the simulation of a testbed so that they can go on
there afterwards. What is wrong with an order shows where it is needed. -/

namespace TschLearning.Testbed

structure ChannelHoppingOrder where
  nodes : Datum := .int 4
  slots : Datum := .int 8
  channels : Datum := .int 16
  -- there is no interference without failure probabilities
  failureProbabilities : Datum := .null
  traffic : Datum := .float 1.0
  duration : Datum := .float 10.0
  params : Option (Parameters Float) := none
  mode : DeployMode := .hoppingSequence
  seed : Seed := .seeded .null

structure SlotSelectionOrder where
  nodes : Datum := .int 2
  slots : Datum := .int 15
  packetProbability : Datum := .float 0.03
  packetSize : Datum := .int 50
  duration : Datum := .float 2.0
  successReward : Datum := .float 1.0
  failureReward : Datum := .float (-1.0)
  params : Option (Parameters Float) := none
  seed : Datum := .null

/-- Lets a prepared network go through its simulation. -/
def simulate (process : Process) (duration : Datum) : Action Testbed Unit := do
  startProcess process
  runFor duration

/-- The generators of a channel-hopping scenario, and the handle of one that is shared. -/
def sourcesOf (seed : Seed) : Action Testbed (Sources Rng × Option Nat) :=
  match seed with
  | .scripted numbers => return (.shared (.ofScript numbers), none)
  | .seeded s => do
    let g ← Action.ofExcept (Rng.ofSeed s)
    return (.apart g g, none)
  | .shared name => do
    match ← find? name with
    | some (.rng i) => return (.shared (← rngs.read i), some i)
    | _ => throw .notAnInteger

def beginChannelHopping (handle : Nat) : Action Testbed Unit :=
  withGenerator handle (pans.alone handle (Pan.begin.alone Prod.snd fun pan run => (run.1, pan)))

def runChannelHopping (o : ChannelHoppingOrder) : Action Testbed Nat := do
  let params ← match o.params with
    | some p => pure p
    | none =>
      Action.ofExcept (Parameters.ofInput
        (ParameterInput.defaults.override [(.deactivationThreshold, .int 2)]))
  let interference ← Action.ofExcept (match o.failureProbabilities with
    | .null => Interference.clear o.channels
    | given => Interference.create given)
  setUp
  let planned (nodes : Nat) : ChannelHoppingScenario Float :=
    { nodes, slots := o.slots, channels := o.channels, interference,
      traffic := Number.ceiling <$> o.traffic.comparable, params, mode := o.mode }
  let network ← Action.ofExcept (planned 0).network
  let (sources, shared) ← sourcesOf o.seed
  let nodes ← Action.ofExcept o.nodes.rounds
  let run ← Action.ofExcept ((planned nodes).build network sources)
  let handle ← add World.pans (fun pans w => { w with pans }) { run, shared }
  beginChannelHopping handle
  simulate (.pan handle) o.duration
  let (_, pan) ← pans.read handle
  pan.conclude
  return handle

def senderSeed (seed : Datum) (i : Nat) : Except Fault Rng :=
  match seed with
  | .null => Rng.ofSeed .null
  | d => do Rng.ofSeed (.int ((← d.whole) + (i + 1)))

def runSlotSelection (o : SlotSelectionOrder) : Action Testbed Nat := do
  if (← Action.ofExcept o.nodes.comparable).lt (.int 2) then throw (.tooFewNodes o.nodes)
  let params ← paramsOr o.params
  let params ← Action.ofExcept (params.replace
    [("packet_probability", o.packetProbability), ("packet_size", o.packetSize),
      ("success_reward", o.successReward), ("failure_reward", o.failureReward)])
  setUp
  let planned (senders : Nat) : SlotSelectionScenario Float :=
    { senders, slots := o.slots, params }
  let network ← Action.ofExcept (planned 0).network
  let source ← Action.ofExcept (Rng.ofSeed o.seed)
  let nodes ← Action.ofExcept o.nodes.rounds
  let prepared ← Action.ofExcept
    ((planned (nodes - 1)).build network source (senderSeed o.seed))
  let handle ← add World.stars (fun stars w => { w with stars }) prepared
  simulate (.star handle) o.duration
  let (network, s) ← stars.read handle
  s.conclude network
  return handle

end TschLearning.Testbed
