import QueryMask.Toml.Node

/-! Building tables from assignments and headers, each name defined once. -/

namespace QueryMask

namespace Toml

/-- A dotted key: the tables on the way, and the last name. -/
structure Key where
  way : List String
  last : String

/-- The key of some names, of which there may only be so many. -/
def Key.ofNames (names : List String) : Except Fault Key :=
  if names.length ≤ nestingAllowance then .ok ⟨names.dropLast, names.getLastD ""⟩
  else .error .nestingLimit

namespace Entries

def set (name : String) (node : Node) : Entries → Entries
  | [] => [(name, node)]
  | (known, old) :: rest =>
    if known == name then (known, node) :: rest else (known, old) :: set name node rest

def insert (name : String) (node : Node) (entries : Entries) : Except Fault Entries :=
  if (entries.lookup name).isSome then .error .malformed else .ok (entries ++ [(name, node)])

def changeLast (change : Entries → Except Fault Entries) :
    List Entries → Except Fault (List Entries)
  | [] => .error .malformed
  | [entries] => (change entries).map ([·])
  | entries :: rest => (changeLast change rest).map (entries :: ·)

/--
Changes the table at the end of a way, whose origin `change` sees too. Tables that are missing on the
way are made. A dotted way does not enter a table with a header of its own.
-/
def changeAt (dotted : Bool) (change : TableOrigin → Entries → Except Fault Entries) :
    List String → TableOrigin → Entries → Except Fault Entries
  | [], origin, entries => change origin entries
  | name :: way, _, entries =>
    match entries.lookup name with
    | none =>
      let origin := if dotted then .dotted else .implied
      (changeAt dotted change way origin []).map fun inner =>
        entries ++ [(name, .table origin inner)]
    | some (.table origin inner) =>
      if dotted && origin == .declared then .error .malformed
      else (changeAt dotted change way origin inner).map fun inner =>
        set name (.table origin inner) entries
    | some (.tables elements) =>
      (changeLast (changeAt dotted change way .declared) elements).map fun elements =>
        set name (.tables elements) entries
    | some (.scalar _) | some (.array _) | some (.inline _) => .error .malformed

/-- Takes in an assignment. A dotted key leads into tables that dotted keys have made. -/
def assign (key : Key) (node : Node) (entries : Entries) : Except Fault Entries :=
  changeAt true
    (fun origin inner =>
      if !key.way.isEmpty && origin != .dotted then .error .malformed
      else insert key.last node inner)
    key.way .declared entries

/-- Takes in the header of a table, which `fill` fills. A table can be declared once. -/
def addTable (key : Key) (fill : Entries → Except Fault Entries) (entries : Entries) :
    Except Fault Entries :=
  changeAt false
    (fun _ parent =>
      match parent.lookup key.last with
      | none => (fill []).map fun table => parent ++ [(key.last, .table .declared table)]
      | some (.table .implied known) =>
        (fill known).map fun table => set key.last (.table .declared table) parent
      | some _ => .error .malformed)
    key.way .declared entries

/-- Takes in the header of a further element of an array of tables. -/
def addElement (entries : Entries) (key : Key) (element : Entries) : Except Fault Entries :=
  changeAt false
    (fun _ parent =>
      match parent.lookup key.last with
      | none => .ok (parent ++ [(key.last, .tables [element])])
      | some (.tables elements) => .ok (set key.last (.tables (elements ++ [element])) parent)
      | some _ => .error .malformed)
    key.way .declared entries

end Entries

end Toml

end QueryMask
