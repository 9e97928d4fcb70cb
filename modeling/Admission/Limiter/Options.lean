import Admission.Text.Blank

namespace Admission

/-- How permits are counted. -/
inductive Algorithm
  | tokenBucket
  | slidingWindow
  deriving DecidableEq, Repr

/-- What happens to a request that no store could be asked about. -/
inductive FailStrategy
  | failOpen
  | failClosed
  deriving DecidableEq, Repr

namespace Algorithm

/-- The name in files. -/
def tag : Algorithm → String
  | tokenBucket => "token_bucket"
  | slidingWindow => "sliding_window"

/-- The name in messages. -/
def text : Algorithm → String
  | tokenBucket => "token bucket"
  | slidingWindow => "sliding window"

def ofTag? : String → Option Algorithm
  | "token_bucket" => some tokenBucket
  | "sliding_window" => some slidingWindow
  | _ => none

/-- Reads a name written by hand. -/
def ofText? (written : String) : Option Algorithm :=
  ofTag? (Text.optionName written)

@[simp] theorem ofTag?_tag (algorithm : Algorithm) : ofTag? algorithm.tag = some algorithm := by
  cases algorithm <;> rfl

end Algorithm

namespace FailStrategy

/-- The name in files. -/
def tag : FailStrategy → String
  | failOpen => "fail_open"
  | failClosed => "fail_closed"

/-- The name in messages. -/
def text : FailStrategy → String
  | failOpen => "fail-open"
  | failClosed => "fail-closed"

def ofTag? : String → Option FailStrategy
  | "fail_open" => some failOpen
  | "fail_closed" => some failClosed
  | _ => none

/-- Reads a name written by hand, with or without its first word. -/
def ofText? (written : String) : Option FailStrategy :=
  match Text.optionName written with
  | "open" => some failOpen
  | "closed" => some failClosed
  | name => ofTag? name

/-- Whether a request passes when no store could be asked. -/
def allows : FailStrategy → Bool
  | failOpen => true
  | failClosed => false

@[simp] theorem ofTag?_tag (strategy : FailStrategy) : ofTag? strategy.tag = some strategy := by
  cases strategy <;> rfl

end FailStrategy
end Admission
