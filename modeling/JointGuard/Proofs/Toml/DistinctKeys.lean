import JointGuard.Proofs.Association
import JointGuard.Toml.Document

/-! # Distinct keys

In the table that a text describes no key stands twice, and neither does one in any value inside it
(`isDistinct_of_parse?`).  Every step of building a tree keeps its keys distinct, as a key is only
added where it is missing; an inline table is a tree of its own. -/

namespace JointGuard.Toml

/-- No table in the value has a key twice. -/
inductive Value.IsDistinct : Value → Prop
  | string (text : String) : IsDistinct (.string text)
  | integer (n : Int64) : IsDistinct (.integer n)
  | float (x : Float) : IsDistinct (.float x)
  | boolean (b : Bool) : IsDistinct (.boolean b)
  | moment (moment : Moment) : IsDistinct (.moment moment)
  | array {items : List Value} (hitems : ∀ item ∈ items, item.IsDistinct) :
      IsDistinct (.array items)
  | table {entries : Table} (hkeys : (entries.map (·.1)).Nodup)
      (hvalues : ∀ entry ∈ entries, entry.2.IsDistinct) : IsDistinct (.table entries)

theorem Value.IsDistinct.of_mem {entries : Table} {entry : String × Value}
    (h : (Value.table entries).IsDistinct) (hmem : entry ∈ entries) : entry.2.IsDistinct := by
  cases h with
  | table _ hvalues => exact hvalues entry hmem

theorem Value.IsDistinct.of_lookup {entries : Table} {key : String} {value : Value}
    (h : (Value.table entries).IsDistinct) (hlookup : entries.lookup key = some value) :
    value.IsDistinct :=
  h.of_mem (Association.mem_of_lookup hlookup)

/-- No table below the node has a key twice. -/
inductive Node.IsDistinct : Node → Prop
  | value {value : Value} (hvalue : value.IsDistinct) : IsDistinct (.value value)
  | table {origin : Origin} {entries : Tree} (hkeys : (entries.map (·.1)).Nodup)
      (hnodes : ∀ entry ∈ entries, entry.2.IsDistinct) : IsDistinct (.table origin entries)
  | tables {elements : List Tree} (hkeys : ∀ tree ∈ elements, (tree.map (·.1)).Nodup)
      (hnodes : ∀ tree ∈ elements, ∀ entry ∈ tree, entry.2.IsDistinct) :
      IsDistinct (.tables elements)

structure Tree.IsDistinct (tree : Tree) : Prop where
  keys : (tree.map (·.1)).Nodup
  nodes : ∀ entry ∈ tree, entry.2.IsDistinct

namespace Tree

variable {tree next : Tree} {key : String} {node : Node}

namespace IsDistinct

theorem empty : IsDistinct [] := ⟨List.nodup_nil, by simp⟩

theorem append (h : tree.IsDistinct) (hnew : key ∉ tree.map (·.1)) (hnode : node.IsDistinct) :
    IsDistinct (tree ++ [(key, node)]) := by
  constructor
  · rw [List.map_append, List.nodup_append]
    refine ⟨h.keys, by simp, ?_⟩
    intro old hold last hlast heq
    rw [List.map_singleton, List.mem_singleton] at hlast
    have hkey : old = key := heq.trans hlast
    exact hnew (hkey ▸ hold)
  · intro entry hentry
    rcases List.mem_append.1 hentry with hold | hlast
    · exact h.nodes entry hold
    · rw [List.mem_singleton] at hlast
      exact hlast ▸ hnode

theorem replace (h : tree.IsDistinct) (hnode : node.IsDistinct) :
    (tree.replace key node).IsDistinct := by
  constructor
  · have hkeys : (tree.replace key node).map (·.1) = tree.map (·.1) := by
      rw [Tree.replace, List.map_map]
      refine List.map_congr_left fun entry _ => ?_
      simp only [Function.comp]
      split <;> simp_all
    exact hkeys ▸ h.keys
  · intro entry hentry
    obtain ⟨old, hold, rfl⟩ := List.mem_map.1 hentry
    split
    · exact hnode
    · exact h.nodes old hold

theorem erase (h : tree.IsDistinct) : (tree.erase key).IsDistinct :=
  ⟨h.keys.sublist (List.filter_sublist.map _), fun entry hentry =>
    h.nodes entry (List.mem_filter.1 hentry).1⟩

theorem notMem_erase : key ∉ (tree.erase key).map (·.1) := by
  simp [Tree.erase]

theorem of_lookup {origin : Origin} {child : Tree} (h : tree.IsDistinct)
    (hlookup : tree.lookup key = some (.table origin child)) : child.IsDistinct := by
  cases h.nodes _ (Association.mem_of_lookup hlookup) with
  | table hkeys hnodes => exact ⟨hkeys, hnodes⟩

theorem forall_of_lookup {elements : List Tree} (h : tree.IsDistinct)
    (hlookup : tree.lookup key = some (.tables elements)) :
    ∀ element ∈ elements, element.IsDistinct := by
  cases h.nodes _ (Association.mem_of_lookup hlookup) with
  | tables hkeys hnodes => exact fun element hmem => ⟨hkeys element hmem, hnodes element hmem⟩

end IsDistinct

theorem isDistinct_tables {elements : List Tree} (h : ∀ element ∈ elements, element.IsDistinct) :
    (Node.tables elements).IsDistinct :=
  .tables (fun element hmem => (h element hmem).keys) fun element hmem => (h element hmem).nodes

/-- A change that keeps the keys of a table distinct keeps those of the whole tree. -/
theorem isDistinct_of_alterAt {fresh : Origin} {f : Origin → Tree → Option Tree}
    (hf : ∀ origin tree next, tree.IsDistinct → f origin tree = some next → next.IsDistinct)
    {parents : List String} {origin : Origin} (h : tree.IsDistinct)
    (halter : alterAt fresh f parents origin tree = some next) : next.IsDistinct := by
  induction parents generalizing origin tree next with
  | nil => exact hf origin tree next h halter
  | cons key parents ih =>
    rw [alterAt] at halter
    split at halter
    next hlookup =>
      obtain ⟨child, hchild, rfl⟩ := Option.map_eq_some_iff.1 halter
      have hdistinct := ih .empty hchild
      have hnew := Association.lookup_eq_none_iff.1 hlookup
      exact h.append hnew (.table hdistinct.keys hdistinct.nodes)
    next => cases halter
    next origin child hlookup =>
      split at halter
      · cases halter
      · obtain ⟨child', hchild, rfl⟩ := Option.map_eq_some_iff.1 halter
        have hdistinct := ih (h.of_lookup hlookup) hchild
        exact h.replace (.table hdistinct.keys hdistinct.nodes)
    next elements hlookup =>
      obtain ⟨last, hlast, halter⟩ := Option.bind_eq_some_iff.1 halter
      obtain ⟨child, hchild, halter⟩ := Option.bind_eq_some_iff.1 halter
      cases halter
      have helements := h.forall_of_lookup hlookup
      have hdistinct := ih (helements last (List.mem_of_getLast? hlast)) hchild
      refine h.replace (isDistinct_tables fun element hmem => ?_)
      rcases List.mem_append.1 hmem with hold | hnew
      · exact helements element ((List.dropLast_sublist elements).mem hold)
      · exact List.mem_singleton.1 hnew ▸ hdistinct

theorem isDistinct_of_assign {path : Path} {value : Value} (h : tree.IsDistinct)
    (hvalue : value.IsDistinct) (hassign : tree.assign path value = some next) :
    next.IsDistinct := by
  refine isDistinct_of_alterAt (fun origin table next htable hnext => ?_) h hassign
  split at hnext
  · cases hnext
  · split at hnext
    · cases hnext
    next hlookup =>
      cases hnext
      have hnew := Association.lookup_eq_none_iff.1 (Option.not_isSome_iff_eq_none.1 hlookup)
      exact htable.append hnew (.value hvalue)

theorem isDistinct_of_assignAll {assignments : List (Path × Value)} (h : tree.IsDistinct)
    (hvalues : ∀ assignment ∈ assignments, assignment.2.IsDistinct)
    (hassign : tree.assignAll assignments = some next) : next.IsDistinct := by
  induction assignments generalizing tree with
  | nil =>
    cases hassign
    exact h
  | cons assignment assignments ih =>
    obtain ⟨hvalue, hvalues⟩ := List.forall_mem_cons.1 hvalues
    rw [assignAll, List.foldlM_cons] at hassign
    obtain ⟨grown, hgrown, hassign⟩ := Option.bind_eq_some_iff.1 hassign
    exact ih (isDistinct_of_assign h hvalue hgrown) hvalues hassign

variable {path : Path} {assignments : List (Path × Value)}

theorem isDistinct_of_addTable (h : tree.IsDistinct)
    (hvalues : ∀ assignment ∈ assignments, assignment.2.IsDistinct)
    (hadd : tree.addTable path assignments = some next) : next.IsDistinct := by
  refine isDistinct_of_alterAt (fun origin table next htable hnext => ?_) h hadd
  split at hnext
  next hlookup =>
    obtain ⟨body, hbody, hnext⟩ := Option.bind_eq_some_iff.1 hnext
    cases hnext
    have hdistinct := isDistinct_of_assignAll .empty hvalues hbody
    have hnew := Association.lookup_eq_none_iff.1 hlookup
    exact htable.append hnew (.table hdistinct.keys hdistinct.nodes)
  next held hlookup =>
    obtain ⟨body, hbody, hnext⟩ := Option.bind_eq_some_iff.1 hnext
    cases hnext
    have hdistinct := isDistinct_of_assignAll (htable.of_lookup hlookup) hvalues hbody
    exact htable.erase.append IsDistinct.notMem_erase (.table hdistinct.keys hdistinct.nodes)
  next => cases hnext

theorem isDistinct_of_addElement (h : tree.IsDistinct)
    (hvalues : ∀ assignment ∈ assignments, assignment.2.IsDistinct)
    (hadd : tree.addElement path assignments = some next) : next.IsDistinct := by
  refine isDistinct_of_alterAt (fun origin table next htable hnext => ?_) h hadd
  obtain ⟨body, hbody, hnext⟩ := Option.bind_eq_some_iff.1 hnext
  have hdistinct := isDistinct_of_assignAll .empty hvalues hbody
  split at hnext
  next hlookup =>
    cases hnext
    refine htable.append (Association.lookup_eq_none_iff.1 hlookup) (isDistinct_tables ?_)
    simpa using hdistinct
  next elements hlookup =>
    cases hnext
    refine htable.replace (isDistinct_tables fun element hmem => ?_)
    rcases List.mem_append.1 hmem with hold | hnew
    · exact htable.forall_of_lookup hlookup element hold
    · exact List.mem_singleton.1 hnew ▸ hdistinct
  next => cases hnext

theorem toTable_eq_map (tree : Tree) :
    tree.toTable = tree.map fun entry => (entry.1, entry.2.toValue) := by
  induction tree with
  | nil => rw [toTable, List.map_nil]
  | cons entry tree ih => rw [toTable, ih, List.map_cons]

theorem toTables_eq_map (trees : List Tree) :
    toTables trees = trees.map fun tree => .table tree.toTable := by
  induction trees with
  | nil => rw [toTables, List.map_nil]
  | cons tree trees ih => rw [toTables, ih, List.map_cons]

theorem isDistinct_toTable {tree : Tree} (hkeys : (tree.map (·.1)).Nodup)
    (hvalues : ∀ entry ∈ tree, entry.2.toValue.IsDistinct) :
    (Value.table tree.toTable).IsDistinct := by
  rw [toTable_eq_map]
  refine .table ?_ ?_
  · rw [List.map_map]
    exact hkeys
  · intro entry hentry
    obtain ⟨old, hold, rfl⟩ := List.mem_map.1 hentry
    exact hvalues old hold

end Tree

theorem Node.IsDistinct.toValue {node : Node} (h : node.IsDistinct) : node.toValue.IsDistinct := by
  induction h with
  | value hvalue =>
    rw [Node.toValue]
    exact hvalue
  | table hkeys _ ih =>
    rw [Node.toValue]
    exact Tree.isDistinct_toTable hkeys ih
  | tables hkeys _ ih =>
    rw [Node.toValue, Tree.toTables_eq_map]
    refine .array fun item hitem => ?_
    obtain ⟨tree, hmem, rfl⟩ := List.mem_map.1 hitem
    exact Tree.isDistinct_toTable (hkeys tree hmem) (ih tree hmem)

theorem Tree.IsDistinct.toTable {tree : Tree} (h : tree.IsDistinct) :
    (Value.table tree.toTable).IsDistinct :=
  Tree.isDistinct_toTable h.keys fun entry hentry => (h.nodes entry hentry).toValue

namespace Scan

variable {α : Type} {property : α → Prop} {item : Scan α}

/-- All that a scan can read has a property. -/
def Yields (item : Scan α) (property : α → Prop) : Prop :=
  ∀ s a rest, item s = some (a, rest) → property a

theorem Yields.many (hitem : item.Yields property) (s : List Char) :
    ∀ a ∈ (item.many s).1, property a := by
  fun_induction item.many s with
  | case1 => simp
  | case2 s a rest hscan _ items _ hmany ih =>
    rw [hmany] at ih
    exact List.forall_mem_cons.2 ⟨hitem s a rest hscan, ih⟩
  | case3 => simp

theorem Yields.separated (hitem : item.Yields property) (mark : Char) :
    Yields (Scan.separated mark item) fun items => ∀ a ∈ items, property a := by
  intro s items rest h
  fun_induction Scan.separated mark item s generalizing items rest with
  | case1 => cases h
  | case4 s a c rest hscan _ items _ _ ih =>
    cases h
    exact List.forall_mem_cons.2 ⟨hitem s a _ hscan, ih _ _ ‹_›⟩
  | case2 s a hscan | case3 s a c rest hscan | case5 s a c rest hscan =>
    cases h
    simpa using hitem s a _ hscan

theorem Yields.getD {scan : Scan (List α)}
    (hscan : scan.Yields fun items => ∀ a ∈ items, property a) (s rest : List Char) :
    ∀ a ∈ ((scan s).getD ([], rest)).1, property a := by
  cases hitems : scan s with
  | none => simp
  | some found => exact hscan s found.1 found.2 hitems

/-- What a scan yields, whatever is skipped before and after it. -/
theorem Yields.skipping (hitem : item.Yields property) (before after : List Char → List Char) :
    Yields (fun s => (item (before s)).map fun (a, rest) => (a, after rest)) property := by
  intro s a rest h
  obtain ⟨⟨a, rest⟩, hscan, heq⟩ := Option.map_eq_some_iff.1 h
  cases heq
  exact hitem _ _ _ hscan

theorem Yields.orElse {other : Scan α} (hitem : item.Yields property)
    (hother : other.Yields property) : Yields (fun s => item s <|> other s) property := by
  intro s a rest h
  simp only [Option.orElse_eq_orElse, Option.orElse_eq_or, Option.or_eq_some_iff] at h
  rcases h with h | ⟨-, h⟩
  · exact hitem s a rest h
  · exact hother s a rest h

theorem yields_map {β : Type} (scan : Scan β) {make : β → α} (hmake : ∀ b, property (make b)) :
    Yields (fun s => (scan s).map fun (b, rest) => (make b, rest)) property := by
  intro s a rest h
  obtain ⟨⟨b, rest⟩, _, heq⟩ := Option.map_eq_some_iff.1 h
  cases heq
  exact hmake b

theorem yields_after (word : List Char) {a : α} (ha : property a) :
    Yields (fun s => (after? word s).map (a, ·)) property := by
  intro s b rest h
  obtain ⟨rest, _, heq⟩ := Option.map_eq_some_iff.1 h
  cases heq
  exact ha

end Scan

open Scan

theorem scalar_yields : Yields scalar Value.IsDistinct :=
  (yields_map _ .string).orElse <| (yields_map _ .moment).orElse <|
    ((yields_map _ .float).orElse (yields_map _ .integer)).orElse <|
    (yields_after _ (.boolean true)).orElse (yields_after _ (.boolean false))

theorem array_yields {item : Scan Value} (hitem : item.Yields Value.IsDistinct) :
    Yields (array item) Value.IsDistinct := by
  intro s value rest h
  have hitems := (hitem.skipping skipGaps skipGaps).separated ','
  simp only [array] at h
  split at h
  · obtain ⟨rest, _, heq⟩ := Option.map_eq_some_iff.1 h
    cases heq
    exact .array (by simp)
  · obtain ⟨rest, _, heq⟩ := Option.map_eq_some_iff.1 h
    cases heq
    exact .array (hitems _ _ _ ‹_›)
  · obtain ⟨rest, _, heq⟩ := Option.map_eq_some_iff.1 h
    cases heq
    exact .array (hitems _ _ _ ‹_›)

theorem assignment_yields {item : Scan Value} (hitem : item.Yields Value.IsDistinct) :
    Yields (assignment item) fun entry => entry.2.IsDistinct := by
  intro s entry rest h
  obtain ⟨⟨path, s⟩, _, h⟩ := Option.bind_eq_some_iff.1 h
  obtain ⟨s, _, h⟩ := Option.bind_eq_some_iff.1 h
  obtain ⟨⟨value, s⟩, hvalue, h⟩ := Option.bind_eq_some_iff.1 h
  cases h
  exact hitem _ _ _ hvalue

theorem inlineTable_yields {item : Scan Value} (hitem : item.Yields Value.IsDistinct) :
    Yields (inlineTable item) Value.IsDistinct := by
  intro s value rest h
  have hentries := ((assignment_yields hitem).skipping id skipBlanks).separated ','
  obtain ⟨rest, _, h⟩ := Option.bind_eq_some_iff.1 h
  obtain ⟨tree, htree, h⟩ := Option.bind_eq_some_iff.1 h
  cases h
  exact (Tree.isDistinct_of_assignAll .empty (hentries.getD s _) htree).toTable

theorem value_yields (depth : Nat) : Yields (value depth) Value.IsDistinct := by
  induction depth with
  | zero => exact scalar_yields
  | succ depth ih =>
    intro s found rest h
    simp only [value] at h
    split at h
    · exact array_yields ih _ _ _ h
    · exact inlineTable_yields ih _ _ _ h
    · exact scalar_yields _ _ _ h

namespace Document

theorem line_yields : Yields line fun found => ∀ entry ∈ found, entry.2.IsDistinct := by
  intro s found rest h
  rw [line] at h
  split at h
  · cases h
    simp
  · obtain ⟨⟨entry, s⟩, hentry, h⟩ := Option.bind_eq_some_iff.1 h
    obtain ⟨rest, _, h⟩ := Option.bind_eq_some_iff.1 h
    cases h
    simpa using assignment_yields (value_yields maxDepth) _ _ _ hentry

theorem isDistinct_of_lines (s : List Char) : ∀ entry ∈ (lines s).1, entry.2.IsDistinct := by
  intro entry hentry
  obtain ⟨found, hmem, heq⟩ := List.mem_filterMap.1 hentry
  exact line_yields.many s found hmem entry heq

theorem block_yields :
    Yields block fun body => ∀ entry ∈ body.2, entry.2.IsDistinct := by
  intro s body rest h
  obtain ⟨⟨header, s⟩, _, h⟩ := Option.bind_eq_some_iff.1 h
  cases h
  exact isDistinct_of_lines s

theorem isDistinct_of_ofText? {text : String} {document : Document}
    (h : ofText? text = some document) :
    (∀ entry ∈ document.top, entry.2.IsDistinct) ∧
      ∀ body ∈ document.sections, ∀ entry ∈ body.2, entry.2.IsDistinct := by
  simp only [ofText?] at h
  split at h
  next sections hmany =>
    cases h
    have hsections := block_yields.many (lines (skipMark text.toList)).2
    rw [hmany] at hsections
    exact ⟨isDistinct_of_lines _, hsections⟩
  next => cases h

theorem isDistinct_of_addSection {tree next : Tree} {body : Header × List (Path × Value)}
    (h : tree.IsDistinct) (hvalues : ∀ entry ∈ body.2, entry.2.IsDistinct)
    (hadd : addSection tree body = some next) : next.IsDistinct := by
  obtain ⟨path | path, entries⟩ := body
  · exact Tree.isDistinct_of_addTable h hvalues hadd
  · exact Tree.isDistinct_of_addElement h hvalues hadd

theorem isDistinct_of_foldlM_addSection {sections : List (Header × List (Path × Value))}
    {tree next : Tree} (h : tree.IsDistinct)
    (hvalues : ∀ body ∈ sections, ∀ entry ∈ body.2, entry.2.IsDistinct)
    (hadd : sections.foldlM addSection tree = some next) : next.IsDistinct := by
  induction sections generalizing tree with
  | nil =>
    cases hadd
    exact h
  | cons body sections ih =>
    obtain ⟨hbody, hvalues⟩ := List.forall_mem_cons.1 hvalues
    rw [List.foldlM_cons] at hadd
    obtain ⟨grown, hgrown, hadd⟩ := Option.bind_eq_some_iff.1 hadd
    exact ih (isDistinct_of_addSection h hbody hgrown) hvalues hadd

end Document

/-- In what a text describes no table has a key twice. -/
theorem isDistinct_of_parse? {text : String} {document : Table}
    (h : parse? text = some document) : (Value.table document).IsDistinct := by
  obtain ⟨lines, hlines, h⟩ := Option.bind_eq_some_iff.1 h
  obtain ⟨top, htop, h⟩ := Option.bind_eq_some_iff.1 h
  obtain ⟨tree, htree, h⟩ := Option.bind_eq_some_iff.1 h
  cases h
  have ⟨hvalues, hsections⟩ := Document.isDistinct_of_ofText? hlines
  have hdistinct := Tree.isDistinct_of_assignAll .empty hvalues htop
  exact (Document.isDistinct_of_foldlM_addSection hdistinct hsections htree).toTable

end JointGuard.Toml
