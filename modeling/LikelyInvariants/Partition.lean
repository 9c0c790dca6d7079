/-!
# Classes of pairs

The pairs of a list say which things belong together. The classes are the connected components of
the graph with these pairs as its edges, so each thing that is in some pair is in exactly one class.
A pair of a thing with itself makes a class of one.

The classes are the trees of a forest. Each pair hangs the root above one of its things under the
root above the other one. Whoever climbs to a root hangs everything that stands on the way directly
under it, so the next way is short.
-/

namespace LikelyInvariants.Partition

variable {α : Type}

/-- A forest of things. A thing without a link is a root. -/
structure Forest (α : Type) where
  /-- Things with what stands above them. The link of a thing that was made last counts. -/
  links : List (α × α) := []
  /-- No way from a thing to its root is longer. -/
  height : Nat := 0
deriving DecidableEq

namespace Forest

variable [DecidableEq α]

/-- What stands above a thing; above a root that is the root itself. -/
def parent (f : Forest α) (a : α) : α := (f.links.lookup a).getD a

/-- The forest with one thing moved under another one. -/
def hang (f : Forest α) (a under : α) : Forest α := { f with links := (a, under) :: f.links }

/-- The root above a thing, at the end of a way of so many steps at most, and the forest in which
everything on this way stands directly under it. -/
def climb (f : Forest α) : Nat → α → α × Forest α
  | 0, a => (a, f)
  | steps + 1, a =>
    if f.parent a = a then (a, f)
    else
      let (root, g) := f.climb steps (f.parent a)
      (root, g.hang a root)

/-- The root above a thing, and the forest with a shorter way to it. -/
def find (f : Forest α) (a : α) : α × Forest α := f.climb f.height a

/-- The forest in which two things are in one tree. Of the roots above them the first one stays a
root if it is to stand above the second one. -/
def unite (above : α → α → Bool) (f : Forest α) (a b : α) : Forest α :=
  let (r, f) := f.find a
  let (s, f) := f.find b
  if r = s then f
  else
    let joined := if above r s then f.hang s r else f.hang r s
    { joined with height := f.height + 1 }

/-- Some things with the roots above them, which are found one after the other. -/
def findAll (f : Forest α) : List α → List (α × α)
  | [] => []
  | a :: as =>
    let (root, g) := f.find a
    (a, root) :: g.findAll as

/-- The forest in which the things of each pair are in one tree. -/
def ofPairs (above : α → α → Bool) (pairs : List (α × α)) : Forest α :=
  pairs.foldl (fun f (a, b) => f.unite above a b) {}

end Forest

variable [DecidableEq α]

/-- The things that are in some pair, each once. -/
def members (pairs : List (α × α)) : List α := (pairs.flatMap fun (a, b) => [a, b]).eraseDups

/-- The classes of some pairs. Which of two roots is to stand above the other one decides about the
forest, but not about the classes. -/
def ofPairs (above : α → α → Bool) (pairs : List (α × α)) : List (List α) :=
  let rooted := (Forest.ofPairs above pairs).findAll (members pairs)
  (rooted.map (·.2)).eraseDups.map fun root => (rooted.filter (·.2 = root)).map (·.1)

end LikelyInvariants.Partition
