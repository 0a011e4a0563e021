import EdmxGen.Prompt

/-!
# Answering with keys

A user at a terminal answers questions with keys. The keys that are typed for one question are not
there for the next, and when no key is left the user goes on pressing Enter. Without a terminal no
question can be asked.
-/

namespace EdmxGen.Terminal

inductive Key
  | enter
  | up
  | down
  | right
  | left
  | backspace
  | char (c : Char)
  deriving DecidableEq, Repr

/-- The keys that a terminal sends as these characters. -/
def keys : List Char → List Key
  | '\x1b' :: '[' :: 'A' :: cs => .up :: keys cs
  | '\x1b' :: '[' :: 'B' :: cs => .down :: keys cs
  | '\x1b' :: '[' :: 'C' :: cs => .right :: keys cs
  | '\x1b' :: '[' :: 'D' :: cs => .left :: keys cs
  | '\r' :: cs => .enter :: keys cs
  | '\n' :: cs => .enter :: keys cs
  | '\x7f' :: cs => .backspace :: keys cs
  | c :: cs => .char c :: keys cs
  | [] => []

/-! ## Choosing -/

/-- What a key does to a choice. -/
inductive Move
  | forward
  | back
  | take
  | cancel
  | stay
  deriving DecidableEq, Repr

def Move.ofKey : Key → Move
  | .down | .char 'j' | .char '\t' => forward
  | .up | .char 'k' => back
  | .enter | .char ' ' => take
  | .char 'q' => cancel
  | _ => stay

/-- The position that is chosen among `count` items, and the keys left over. -/
def choose (count cursor : Nat) : List Key → Option Nat × List Key
  | [] => (some cursor, [])
  | k :: ks =>
    match Move.ofKey k with
    | .forward => choose count ((cursor + 1) % count) ks
    | .back => choose count ((cursor + count - 1) % count) ks
    | .take => (some cursor, ks)
    | .cancel => (none, ks)
    | .stay => choose count cursor ks

/-! ## Entering a text -/

/-- A line that is being edited: what stands before the cursor, last character first, and behind it.
-/
structure Line where
  before : List Char := []
  after : List Char := []
  deriving DecidableEq, Repr

namespace Line

def text (l : Line) : List Char := l.before.reverse ++ l.after

/-- The line after a key other than Enter. -/
def press (l : Line) : Key → Line
  | .left =>
    match l.before with
    | c :: cs => ⟨cs, c :: l.after⟩
    | [] => l
  | .right =>
    match l.after with
    | c :: cs => ⟨c :: l.before, cs⟩
    | [] => l
  | .backspace => ⟨l.before.tail, l.after⟩
  | .char c => if c.toNat < 0x20 then l else ⟨c :: l.before, l.after⟩
  | _ => l

end Line

/-- The text that is entered, and the keys left over. -/
def enter (l : Line) : List Key → List Char × List Key
  | [] => (l.text, [])
  | .enter :: ks => (l.text, ks)
  | k :: ks => enter (l.press k) ks

/-- The answer that a text stands for; an empty one stands for the initial text, and blanks for
none. -/
def answerOf (initial : Option String) (entered : List Char) : Answer :=
  let value := if entered.isEmpty then (initial.getD "").toList else entered
  if (Text.trim value).isEmpty then .none else .text (String.ofList value)

/-! ## Answers -/

/-- The answer to a question, and the keys left over. -/
def reply (ks : List Key) : Question → Answer × List Key
  | .select _ items initial =>
    match choose items.length initial ks with
    | (some n, ks) => (.position n, ks)
    | (none, ks) => (.none, ks)
  | .input _ initial _ =>
    let (entered, ks) := enter {} ks
    (answerOf initial entered, ks)

/-- The answer to the last of some questions. -/
def replyAll (ks : List Key) : List Question → Answer
  | [] => .none
  | [q] => (reply ks q).1
  | q :: qs => replyAll (reply ks q).2 qs

/-- A user who types these characters. -/
def typing (typed : String) : Prompter := replyAll (keys typed.toList)

/-- A program that cannot ask anyone. -/
def absent : Prompter := fun _ => .refused "Cannot prompt for input: stdin is not a terminal"

end EdmxGen.Terminal
