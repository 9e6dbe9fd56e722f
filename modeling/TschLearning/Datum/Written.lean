import TschLearning.Datum
import TschLearning.Binary64.Shortest
import TschLearning.Text.Quoted

/-! The written form of values, as messages and log entries show them. -/

namespace TschLearning.Datum

mutual

/-- The written form; a text stands in quotes. -/
def written : Datum → String
  | .null => "None"
  | .bool true => "True"
  | .bool false => "False"
  | .int i => toString i
  | .float x => Binary64.text x
  | .text s => Text.quoted s
  | .list items => "[" ++ writtenItems items ++ "]"
  | .dict entries => "\x7b" ++ writtenEntries entries ++ "\x7d"

def writtenItems : List Datum → String
  | [] => ""
  | [x] => x.written
  | x :: y :: rest => x.written ++ ", " ++ writtenItems (y :: rest)

def writtenEntries : List (String × Datum) → String
  | [] => ""
  | [(k, x)] => Text.quoted k ++ ": " ++ x.written
  | (k, x) :: y :: rest => Text.quoted k ++ ": " ++ x.written ++ ", " ++ writtenEntries (y :: rest)

end

/-- The form within a sentence: a text stands as it is. -/
def spoken : Datum → String
  | .text s => s
  | d => d.written

def writtenInts (is : List Int) : String := written (.list (ofInts is))

end TschLearning.Datum
