import LaunchTrace.Step.Tree

/-! The trees of a recording from groups of siblings. Events that have no place yet are grouped under their parents, a
whole group is attached at once, and only the first events of the groups are looked at when one is promoted. -/
namespace LaunchTrace.StepTree

/-- Events go by their ids. Those with equal ids are not told apart. -/
def byId (a b : Event) : Bool :=
  a.id ≤ b.id

/-- Events that belong under one parent. -/
structure Group where
  parent : StepId
  siblings : List Event

namespace Group

def first? (g : Group) : Option Pending :=
  g.siblings.head?.map (⟨g.parent, ·⟩)

def arranged (g : Group) : Group :=
  { g with siblings := g.siblings.mergeSort byId }

/-- Puts an event behind its siblings. -/
def add (parent : StepId) (e : Event) : List Group → List Group
  | [] => [⟨parent, [e]⟩]
  | g :: rest => if g.parent = parent then ⟨parent, g.siblings ++ [e]⟩ :: rest else g :: add parent e rest

def siblingsOf (parent : StepId) : List Group → List Event
  | [] => []
  | g :: rest => if g.parent = parent then g.siblings else siblingsOf parent rest

/-- Takes out the first event of a group, and the group with it if there is no other. -/
def dropFirst (parent : StepId) : List Group → List Group
  | [] => []
  | g :: rest =>
    if g.parent = parent then
      match g.siblings.tail with
      | [] => rest
      | more => ⟨parent, more⟩ :: rest
    else g :: dropFirst parent rest

/-- The groups of the events, each in the order of ids. -/
def ofEvents (events : List Event) : List Group :=
  ((pending events).foldl (fun groups p => add p.parent p.event groups) []).map arranged

end Group

/-- The pending event that goes before all others. -/
def lowest? : List Pending → Option Pending
  | [] => none
  | p :: rest =>
    match lowest? rest with
    | none => some p
    | some q => if Pending.le p q then some p else some q

/-- Attaches to each event in turn what `attach` finds for it among the groups that are left. -/
def attachEach (attach : StepId → List Group → List StepTree × List Group) :
    List Event → List Group → List StepTree × List Group
  | [], groups => ([], groups)
  | e :: more, groups =>
    let (children, groups) := attach e.id groups
    let (trees, groups) := attachEach attach more groups
    (.node e children :: trees, groups)

/-- Takes the group of `parent` and attaches to it so many levels. -/
def attach : Nat → StepId → List Group → List StepTree × List Group
  | 0, _, groups => ([], groups)
  | n + 1, parent, groups =>
    attachEach (attach n) (Group.siblingsOf parent groups) (groups.filter (·.parent ≠ parent))

/-- Promotes the lowest of the first events of the groups, as long as there is one. Each round takes at least one. -/
def promoteGroups : Nat → List Group → List StepTree
  | 0, _ => []
  | n + 1, groups =>
    match lowest? (groups.filterMap Group.first?) with
    | none => []
    | some p =>
      let (children, groups) := attach (levels - 1) p.event.id (Group.dropFirst p.parent groups)
      .node p.event children :: promoteGroups n groups

def ofGroups (events : List Event) : List StepTree :=
  let (trees, groups) := attach levels rootId (Group.ofEvents events)
  trees ++ promoteGroups events.length groups

end LaunchTrace.StepTree
