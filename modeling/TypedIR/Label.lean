/-!
Contract: names that avoid those already taken.

Owns:
- the least number from a start on whose text is not taken;
- names for blocks: a wanted name itself if it is free, else the name followed by
  the least positive number that makes it free;
- names for the locals of a function, all different: a wanted name as for blocks,
  and for an anonymous local the next number that is free.

Of one more candidate than there are taken names, one is free, so the search
needs no more.
-/

namespace TypedIR.Label

/-- The first number from `start` on whose text is free, looking at `budget` of them. -/
def firstFree (taken : List String) (text : Nat → String) : Nat → Nat → Nat
  | 0, start => start
  | budget + 1, start =>
      if text start ∈ taken then firstFree taken text budget (start + 1) else start

/-- The name itself, or with the least positive number behind it that makes it free. -/
def unique (taken : List String) (name : String) : String :=
  if name ∈ taken then
    let numbered (number : Nat) : String := name ++ toString number
    numbered (firstFree taken numbered (taken.length + 1) 1)
  else name

/-- The name of a new block; blocks without a name may be many. -/
def ofBlock (taken : List String) (name : String) : String :=
  if name = "" then "" else unique taken name

/-- Names for locals in order, given the names taken and the next number for one without a
name. -/
def assignFrom (taken : List String) (next : Nat) : List String → List String
  | [] => []
  | wanted :: rest =>
      if wanted = "" then
        let number := firstFree taken toString (taken.length + 1) next
        toString number :: assignFrom (toString number :: taken) (number + 1) rest
      else
        let name := unique taken wanted
        name :: assignFrom (name :: taken) next rest

def assign (wanted : List String) : List String := assignFrom [] 0 wanted

example : assign ["", "a", "a", "0", "", "2", ""] = ["0", "a", "a1", "01", "1", "2", "3"] := by
  decide

example : ofBlock ["entry", "entry1", "loop"] "entry" = "entry2" := by decide

end TypedIR.Label
