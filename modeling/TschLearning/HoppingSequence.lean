import TschLearning.Datum.Conversion

/-! Hopping sequences: the channel of every slot of a slotframe. -/

namespace TschLearning

/-- A channel for every slot. -/
structure HoppingSequence where
  channels : List Int
deriving DecidableEq

namespace HoppingSequence

/-- The sequence of a row of values, rounded toward zero. -/
def ofItems (items : List Datum) : Except Fault HoppingSequence := do
  return ⟨← items.mapM Datum.toInt⟩

def ofDatum (d : Datum) : Except Fault HoppingSequence :=
  match d.items? with
  | some items => ofItems items
  | none => .error .notASequence

/-- The channel at a position; negative ones count from the end. -/
def get (h : HoppingSequence) (position : Datum) : Except Fault Int :=
  let found (i : Int) : Except Fault Int :=
    let i := if i < 0 then i + h.channels.length else i
    if i < 0 then .error .positionOutOfRange
    else match h.channels[i.toNat]? with
      | some c => .ok c
      | none => .error .positionOutOfRange
  match position with
  | .int i => found i
  | .bool b => found (if b then 1 else 0)
  | _ => .error .notAnInteger

/-- Whether a row of values holds the same channels. -/
def sameItems (h : HoppingSequence) (items : List Datum) : Bool :=
  h.channels.length == items.length
    && (h.channels.zip items).all fun e => e.2.number?.any (·.same (.int e.1))

def written (h : HoppingSequence) : String :=
  " ".intercalate (h.channels.zipIdx.map fun e => s!"{e.2}:{e.1}")

def label (h : HoppingSequence) : String :=
  "HoppingSequence(" ++ Datum.writtenInts h.channels ++ ")"

end HoppingSequence
end TschLearning
