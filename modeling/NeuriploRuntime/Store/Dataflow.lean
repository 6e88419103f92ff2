import Mathlib.Data.List.Nodup
import Mathlib.Data.List.Pairwise
import Mathlib.Data.List.Perm.Basic
import Mathlib.Logic.Function.Basic

namespace store

/-- A node of a network: the keys it reads, the keys it may write, and what it makes of the values it has
read, if it does not fail. -/
structure Node (Key Value : Type*) where
  reads : List Key
  writes : List Key
  fire : List Value → Option (List (Key × Value))
  within : ∀ values entries, fire values = some entries → ∀ entry ∈ entries, entry.1 ∈ writes

variable {Key Value : Type*}

/-- Reading the same values gives the same. -/
theorem mapM_congr {table other : Key → Option Value} {keys : List Key}
    (hagree : ∀ key ∈ keys, table key = other key) : keys.mapM table = keys.mapM other := by
  induction keys with
  | nil => rfl
  | cons key keys ih =>
    obtain ⟨hkey, hkeys⟩ := List.forall_mem_cons.mp hagree
    rw [List.mapM_cons, List.mapM_cons, hkey, ih hkeys]

/-- What can be read together can be read one by one. -/
theorem isSome_of_mapM {table : Key → Option Value} {keys : List Key} {values : List Value}
    (hvalues : keys.mapM table = some values) : ∀ key ∈ keys, ∃ value, table key = some value := by
  induction keys generalizing values with
  | nil => exact fun _ hkey => absurd hkey List.not_mem_nil
  | cons key keys ih =>
    rw [List.mapM_cons] at hvalues
    obtain ⟨value, hvalue, hrest⟩ := Option.bind_eq_some_iff.mp hvalues
    obtain ⟨others, hothers, -⟩ := Option.bind_eq_some_iff.mp hrest
    exact List.forall_mem_cons.mpr ⟨⟨value, hvalue⟩, ih hothers⟩

/-- No two nodes write one key, nor any node over a value that was there from the start. -/
structure WritesOnce (nodes : List (Node Key Value)) (start : Key → Option Value) : Prop where
  apart : nodes.Pairwise fun node other => List.Disjoint node.writes other.writes
  fresh : ∀ node ∈ nodes, ∀ key ∈ node.writes, start key = none

/-- Every node reads what was there from the start or what an earlier node may write. -/
def Ordered : List (Node Key Value) → List Key → Prop
  | [], _ => True
  | node :: nodes, available => (∀ key ∈ node.reads, key ∈ available) ∧ Ordered nodes (available ++ node.writes)

/-- Single assignment does not depend on the order of the nodes. -/
theorem WritesOnce.perm {nodes others : List (Node Key Value)} {start : Key → Option Value}
    (honce : WritesOnce nodes start) (hperm : nodes.Perm others) : WritesOnce others start where
  apart := by
    apply hperm.pairwise honce.apart
    intro node other hdisjoint key hother hnode
    exact hdisjoint hnode hother
  fresh node hnode := honce.fresh node (hperm.mem_iff.mpr hnode)

variable [DecidableEq Key]

/-- A table that also has the values of an association list, the later ones over the earlier ones. -/
def writeAll (table : Key → Option Value) (entries : List (Key × Value)) : Key → Option Value :=
  entries.foldl (fun table entry => Function.update table entry.1 (some entry.2)) table

/-- Writing leaves the other keys alone. -/
theorem writeAll_of_not_mem {entries : List (Key × Value)} {key : Key} (hkey : ∀ entry ∈ entries, entry.1 ≠ key)
    (table : Key → Option Value) : writeAll table entries key = table key := by
  induction entries generalizing table with
  | nil => rfl
  | cons entry entries ih =>
    obtain ⟨hentry, hentries⟩ := List.forall_mem_cons.mp hkey
    rw [writeAll, List.foldl_cons, ← writeAll, ih hentries, Function.update_of_ne hentry.symm]

/-- What is written under a key depends on what was there under that key alone. -/
theorem writeAll_congr {table other : Key → Option Value} {key : Key} (hkey : table key = other key)
    (entries : List (Key × Value)) : writeAll table entries key = writeAll other entries key := by
  induction entries generalizing table other with
  | nil => exact hkey
  | cons entry entries ih =>
    apply ih
    dsimp only
    by_cases hentry : key = entry.1
    · rw [hentry, Function.update_self, Function.update_self]
    · rw [Function.update_of_ne hentry, Function.update_of_ne hentry, hkey]

/-- A table in which every node has written what it makes of what is there, and that is the first one where no
node writes. Nothing is said of an order. -/
structure Solves (nodes : List (Node Key Value)) (start table : Key → Option Value) : Prop where
  kept : ∀ key, (∀ node ∈ nodes, key ∉ node.writes) → table key = start key
  fired : ∀ node ∈ nodes, ∃ entries, (node.reads.mapM table).bind node.fire = some entries ∧
    ∀ key ∈ node.writes, table key = writeAll (fun _ => none) entries key

/-- A solution does not depend on the order of the nodes. -/
theorem Solves.perm {nodes others : List (Node Key Value)} {start table : Key → Option Value}
    (hsolves : Solves nodes start table) (hperm : nodes.Perm others) : Solves others start table where
  kept key hkey := hsolves.kept key fun node hnode => hkey node (hperm.mem_iff.mp hnode)
  fired node hnode := hsolves.fired node (hperm.mem_iff.mpr hnode)

/-- The nodes one after the other. -/
def run : List (Node Key Value) → (Key → Option Value) → Option (Key → Option Value)
  | [], table => some table
  | node :: nodes, table =>
    ((node.reads.mapM table).bind node.fire).bind fun entries => run nodes (writeAll table entries)

section Run

variable {node : Node Key Value} {nodes : List (Node Key Value)} {start table : Key → Option Value}

/-- A node leaves alone what it does not write. -/
theorem Node.writeAll_of_not_mem {values : List Value} {entries : List (Key × Value)}
    (hfire : node.fire values = some entries) {key : Key} (hkey : key ∉ node.writes) (table : Key → Option Value) :
    writeAll table entries key = table key := by
  apply store.writeAll_of_not_mem
  intro entry hentry heq
  exact hkey (heq ▸ node.within values entries hfire entry hentry)

/-- Once a node has written, the others still write once. -/
theorem WritesOnce.tail (honce : WritesOnce (node :: nodes) start) {values : List Value}
    {entries : List (Key × Value)} (hfire : node.fire values = some entries) :
    WritesOnce nodes (writeAll start entries) where
  apart := (List.pairwise_cons.mp honce.apart).2
  fresh other hother key hkey := by
    have hnot : key ∉ node.writes := fun hwritten => (List.pairwise_cons.mp honce.apart).1 other hother hwritten hkey
    rw [Node.writeAll_of_not_mem hfire hnot]
    exact honce.fresh other (List.mem_cons_of_mem _ hother) key hkey

/-- A run ends in a solution. -/
theorem solves_of_run (honce : WritesOnce nodes start) (hrun : run nodes start = some table) :
    Solves nodes start table := by
  induction nodes generalizing start with
  | nil =>
    cases hrun
    exact ⟨fun _ _ => rfl, fun _ hnode => absurd hnode List.not_mem_nil⟩
  | cons node nodes ih =>
    rw [run] at hrun
    obtain ⟨entries, hfired, hrun⟩ := Option.bind_eq_some_iff.mp hrun
    obtain ⟨values, hvalues, hfire⟩ := Option.bind_eq_some_iff.mp hfired
    have hrest := ih (honce.tail hfire) hrun
    have hdisjoint := (List.pairwise_cons.mp honce.apart).1
    have hread : node.reads.mapM table = some values := by
      rw [← hvalues]
      apply mapM_congr
      intro key hkey
      -- What is there from the start is not written.
      obtain ⟨value, hvalue⟩ := isSome_of_mapM hvalues key hkey
      have hnot : ∀ other ∈ node :: nodes, key ∉ other.writes := by
        intro other hother hwritten
        rw [honce.fresh other hother key hwritten] at hvalue
        cases hvalue
      obtain ⟨hnode, hnodes⟩ := List.forall_mem_cons.mp hnot
      rw [hrest.kept key hnodes, Node.writeAll_of_not_mem hfire hnode]
    constructor
    · intro key hkey
      obtain ⟨hnode, hnodes⟩ := List.forall_mem_cons.mp hkey
      rw [hrest.kept key hnodes, Node.writeAll_of_not_mem hfire hnode]
    · rw [List.forall_mem_cons]
      refine ⟨⟨entries, by rw [hread, Option.bind_some, hfire], ?_⟩, hrest.fired⟩
      intro key hkey
      rw [hrest.kept key fun other hother hwritten => hdisjoint other hother hkey hwritten]
      apply writeAll_congr
      exact honce.fresh node List.mem_cons_self key hkey

/-- Nodes in order run into any solution. -/
theorem run_of_solves {available : List Key} (honce : WritesOnce nodes start) (hordered : Ordered nodes available)
    (havailable : ∀ node ∈ nodes, List.Disjoint available node.writes) (hsolves : Solves nodes start table) :
    run nodes start = some table := by
  induction nodes generalizing start available with
  | nil =>
    have hsame : start = table := funext fun key => (hsolves.kept key fun _ hnode => absurd hnode List.not_mem_nil).symm
    rw [run, hsame]
  | cons node nodes ih =>
    obtain ⟨hreads, hordered⟩ := hordered
    obtain ⟨entries, hfired, hwritten⟩ := hsolves.fired node List.mem_cons_self
    obtain ⟨values, hvalues, hfire⟩ := Option.bind_eq_some_iff.mp hfired
    have hdisjoint := (List.pairwise_cons.mp honce.apart).1
    have hread : node.reads.mapM start = some values := by
      rw [← hvalues]
      apply mapM_congr
      intro key hkey
      symm
      apply hsolves.kept
      intro other hother hwrites
      exact havailable other hother (hreads key hkey) hwrites
    rw [run, hread, Option.bind_some, hfire, Option.bind_some]
    apply ih (honce.tail hfire) hordered
    · intro other hother key hkey hlater
      obtain hkey | hkey := List.mem_append.mp hkey
      · exact havailable other (List.mem_cons_of_mem _ hother) hkey hlater
      · exact hdisjoint other hother hkey hlater
    · constructor
      · intro key hkey
        by_cases hnode : key ∈ node.writes
        · rw [hwritten key hnode]
          apply writeAll_congr
          exact (honce.fresh node List.mem_cons_self key hnode).symm
        · rw [hsolves.kept key (List.forall_mem_cons.mpr ⟨hnode, hkey⟩), Node.writeAll_of_not_mem hfire hnode]
      · exact fun other hother => hsolves.fired other (List.mem_cons_of_mem _ hother)

/-- Two orders of the same nodes run into the same table. -/
theorem run_perm {others : List (Node Key Value)} {available : List Key} (hperm : nodes.Perm others)
    (honce : WritesOnce nodes start) (hordered : Ordered others available)
    (havailable : ∀ node ∈ others, List.Disjoint available node.writes) (hrun : run nodes start = some table) :
    run others start = some table := by
  apply run_of_solves (honce.perm hperm) hordered havailable
  exact (solves_of_run honce hrun).perm hperm

end Run

end store
