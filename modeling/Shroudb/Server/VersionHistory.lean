import Shroudb.Server.Migration

/-! The version history a replay leaves of every key. -/
namespace Shroudb
open Wire Effect

section
variable {C : Crates}

/-- The records of a key by ascending version number. -/
abbrev Versions (C : Crates) := List (UInt64 × VersionRecord C)

def insertVersion (version : UInt64) (record : VersionRecord C) (h : Versions C) : Versions C :=
  h.filter (·.1 < version) ++ (version, record) :: h.filter (version < ·.1)

/-- What `shroudb_storage` documents of its index: `capture` lists every key once with its records
in order, and a payload adds one record and makes it current. A tombstone holds `blank`, and the
legacy `EntryPut` sets no expiry. -/
structure Storage.Keeps (E : Storage C) (records : E.Index → String → Bytes → Versions C)
    (blank : Option Bytes × C.Metadata) : Prop where
  emptyRecords : ∀ ns key, records E.empty ns key = []
  emptyCurrent : ∀ ns key, E.currentVersion E.empty ns key = none
  names : ∀ index, ((E.capture index).map (·.name)).Nodup
  keys : ∀ index, ∀ ns ∈ E.capture index, (ns.keys.map (·.1)).Nodup
  captured : ∀ index, ∀ ns ∈ E.capture index, ∀ k ∈ ns.keys,
    k.2 = (records index ns.name k.1).map (·.2)
  missing : ∀ index name key, (∀ ns ∈ E.capture index, ns.name = name → ∀ k ∈ ns.keys, k.1 ≠ key) →
    records index name key = [] ∧ E.currentVersion index name key = none
  created : ∀ index name config createdAt,
    (∀ key, records index name key = [] ∧ E.currentVersion index name key = none) → ∀ ns key,
    records (E.apply index "__system__" (.namespaceCreated name config createdAt)) ns key =
        records index ns key ∧
      E.currentVersion (E.apply index "__system__" (.namespaceCreated name config createdAt)) ns
        key = E.currentVersion index ns key
  put : ∀ index ns key value metadata version actor, ∃ updatedAt, ∀ ns' key',
    records (E.apply index ns (.entryPut key value metadata version actor)) ns' key' =
        (if ns' = ns ∧ key' = key then
          insertVersion version ⟨.active, some value, metadata, updatedAt, actor, none⟩
            (records index ns key)
        else records index ns' key') ∧
      E.currentVersion (E.apply index ns (.entryPut key value metadata version actor)) ns' key' =
        if ns' = ns ∧ key' = key then some version else E.currentVersion index ns' key'
  deleted : ∀ index ns key version actor, ∃ updatedAt, ∀ ns' key',
    records (E.apply index ns (.entryDeleted key version actor)) ns' key' =
        (if ns' = ns ∧ key' = key then
          insertVersion version ⟨.deleted, blank.1, blank.2, updatedAt, actor, none⟩
            (records index ns key)
        else records index ns' key') ∧
      E.currentVersion (E.apply index ns (.entryDeleted key version actor)) ns' key' =
        if ns' = ns ∧ key' = key then some version else E.currentVersion index ns' key'

/-! ## What a replay leaves of a list of records -/

/-- What the replay keeps of a record: no expiry, and of a tombstone only its actor. -/
structure Replayed (blank : Option Bytes × C.Metadata) (record replayed : VersionRecord C) :
    Prop where
  state : replayed.state = record.state
  actor : replayed.actor = record.actor
  expiry : replayed.expiresAtMs = none
  value : replayed.value = if record.state = .active then record.value else blank.1
  metadata : replayed.metadata = if record.state = .active then record.metadata else blank.2

/-- The numbers 1 to `n`. -/
def firstNumbers (n : Nat) : List UInt64 := (List.range n).map fun i => UInt64.ofNat (i + 1)

/-- `h` is `records` replayed and numbered from 1. -/
def Renumbered (blank : Option Bytes × C.Metadata) (records : List (VersionRecord C))
    (h : Versions C) : Prop :=
  h.map (·.1) = firstNumbers records.length ∧ List.Forall₂ (Replayed blank) records (h.map (·.2))

/-- The current version of a key with `n` versions numbered from 1. -/
def numbered (n : Nat) : Option UInt64 := if n = 0 then none else some (UInt64.ofNat n)

theorem nextVersion_numbered (n : Nat) : nextVersion (numbered n) = UInt64.ofNat (n + 1) := by
  cases n with
  | zero => rfl
  | succ n =>
    rw [numbered, if_neg (Nat.succ_ne_zero n)]
    apply UInt64.toNat_inj.mp
    simp [nextVersion]

theorem lt_of_mem_firstNumbers {n : Nat} {v : UInt64} (hn : n + 1 < 2 ^ 64)
    (h : v ∈ firstNumbers n) : v < UInt64.ofNat (n + 1) := by
  obtain ⟨i, hi, rfl⟩ := List.mem_map.mp h
  rw [List.mem_range] at hi
  have hsize : UInt64.size = 2 ^ 64 := rfl
  rw [UInt64.lt_iff_toNat_lt, UInt64.toNat_ofNat_of_lt' (by omega),
    UInt64.toNat_ofNat_of_lt' (by omega)]
  omega

/-- A version above all others goes last. -/
theorem insertVersion_last {version : UInt64} {record : VersionRecord C} {h : Versions C}
    (hlt : ∀ p ∈ h, p.1 < version) : insertVersion version record h = h ++ [(version, record)] := by
  have hbelow : h.filter (·.1 < version) = h :=
    List.filter_eq_self.mpr fun p hp => decide_eq_true (hlt p hp)
  have habove : h.filter (version < ·.1) = [] := by
    refine List.filter_eq_nil_iff.mpr fun p hp => ?_
    have hle := UInt64.not_lt.mpr (UInt64.le_of_lt (hlt p hp))
    simpa using hle
  rw [insertVersion, hbelow, habove]

theorem Renumbered.concat {blank : Option Bytes × C.Metadata} {records : List (VersionRecord C)}
    {h : Versions C} {record replayed : VersionRecord C} (hn : records.length + 1 < 2 ^ 64)
    (hr : Renumbered blank records h) (hreplayed : Replayed blank record replayed) :
    Renumbered blank (records ++ [record])
      (insertVersion (UInt64.ofNat (records.length + 1)) replayed h) := by
  obtain ⟨hnumbers, hrecords⟩ := hr
  have hlast : ∀ p ∈ h, p.1 < UInt64.ofNat (records.length + 1) := by
    intro p hp
    refine lt_of_mem_firstNumbers hn ?_
    rw [← hnumbers]
    exact List.mem_map_of_mem hp
  rw [insertVersion_last hlast]
  constructor
  · rw [List.map_append, hnumbers, List.length_append, List.length_singleton, firstNumbers,
      firstNumbers, List.range_succ, List.map_append]
    rfl
  · rw [List.map_append]
    exact List.rel_append hrecords (.cons hreplayed .nil)

/-- The records an item writes to a key. -/
def ReplayItem.writes (ns : String) (key : Bytes) : ReplayItem C → List (VersionRecord C)
  | .createNamespace .. => []
  | .writeVersion ns' key' record => if ns = ns' ∧ key = key' then [record] else []

def writesOf (items : List (ReplayItem C)) (ns : String) (key : Bytes) : List (VersionRecord C) :=
  items.flatMap (ReplayItem.writes ns key)

variable {E : Storage C} {records : E.Index → String → Bytes → Versions C}
  {blank : Option Bytes × C.Metadata} {index index' : E.Index}

/-- The keys of the namespaces in `S` hold what `items` wrote to them, numbered from 1. -/
def Holds (records : E.Index → String → Bytes → Versions C) (blank : Option Bytes × C.Metadata)
    (S : String → Prop) (index : E.Index) (items : List (ReplayItem C)) : Prop :=
  ∀ ns, S ns → ∀ key, Renumbered blank (writesOf items ns key) (records index ns key) ∧
    E.currentVersion index ns key = numbered (writesOf items ns key).length

variable {S : String → Prop} {items : List (ReplayItem C)}

theorem writesOf_concat (item : ReplayItem C) (ns : String) (key : Bytes) :
    writesOf (items ++ [item]) ns key = writesOf items ns key ++ item.writes ns key := by
  simp [writesOf]

/-- A payload that adds one record to one key. -/
theorem Holds.write {ns : String} {key : Bytes} {record replayed : VersionRecord C}
    (h : Holds records blank S index items) (hs : S ns)
    (hn : (writesOf items ns key).length + 1 < 2 ^ 64)
    (hreplayed : Replayed blank record replayed)
    (hrecords : ∀ ns' key', records index' ns' key' =
      if ns' = ns ∧ key' = key then
        insertVersion (nextVersion (E.currentVersion index ns key)) replayed (records index ns key)
      else records index ns' key')
    (hcurrent : ∀ ns' key', E.currentVersion index' ns' key' =
      if ns' = ns ∧ key' = key then some (nextVersion (E.currentVersion index ns key))
      else E.currentVersion index ns' key') :
    Holds records blank S index' (items ++ [.writeVersion ns key record]) := by
  intro ns' hs' key'
  obtain ⟨hrenumbered, hnumber⟩ := h ns' hs' key'
  rw [writesOf_concat, ReplayItem.writes, hrecords, hcurrent]
  by_cases hsame : ns' = ns ∧ key' = key
  · obtain ⟨rfl, rfl⟩ := hsame
    rw [if_pos ⟨rfl, rfl⟩, if_pos ⟨rfl, rfl⟩, if_pos ⟨rfl, rfl⟩, hnumber, nextVersion_numbered]
    refine ⟨hrenumbered.concat hn hreplayed, ?_⟩
    rw [List.length_append, List.length_singleton, numbered, if_neg (Nat.succ_ne_zero _)]
  · rw [if_neg hsame, if_neg hsame, if_neg hsame, List.append_nil]
    exact ⟨hrenumbered, hnumber⟩

/-- What one round of the replay keeps. -/
theorem Holds.step (hk : E.Keeps records blank) {item : ReplayItem C}
    (h : Holds records blank S index items) (hstep : replayItem E index item = some index')
    (hcreate : ∀ name config createdAt, item = .createNamespace name config createdAt →
      ∀ key, records index name key = [] ∧ E.currentVersion index name key = none)
    (hwrite : ∀ ns key record, item = .writeVersion ns key record →
      S ns ∧ (writesOf items ns key).length + 1 < 2 ^ 64) :
    Holds records blank S index' (items ++ [item]) := by
  cases item with
  | createNamespace name config createdAt =>
    cases hstep
    intro ns hs key
    obtain ⟨hrecords, hcurrent⟩ :=
      hk.created index name config createdAt (hcreate name config createdAt rfl) ns key
    rw [writesOf_concat, ReplayItem.writes, List.append_nil, hrecords, hcurrent]
    exact h ns hs key
  | writeVersion ns key record =>
    obtain ⟨hs, hn⟩ := hwrite ns key record rfl
    obtain ⟨state, value, metadata, at₀, actor, expiry⟩ := record
    cases state with
    | active =>
      cases value with
      | none => cases hstep
      | some value =>
        cases hstep
        obtain ⟨updatedAt, hput⟩ := hk.put index ns key value metadata
          (nextVersion (E.currentVersion index ns key)) actor
        have hreplayed : Replayed blank ⟨.active, some value, metadata, at₀, actor, expiry⟩
            ⟨.active, some value, metadata, updatedAt, actor, none⟩ := ⟨rfl, rfl, rfl, rfl, rfl⟩
        exact h.write hs hn hreplayed (fun ns' key' => (hput ns' key').1)
          fun ns' key' => (hput ns' key').2
    | deleted =>
      cases hstep
      obtain ⟨updatedAt, hdeleted⟩ := hk.deleted index ns key
        (nextVersion (E.currentVersion index ns key)) actor
      have hreplayed : Replayed blank ⟨.deleted, value, metadata, at₀, actor, expiry⟩
          ⟨.deleted, blank.1, blank.2, updatedAt, actor, none⟩ := ⟨rfl, rfl, rfl, rfl, rfl⟩
      exact h.write hs hn hreplayed (fun ns' key' => (hdeleted ns' key').1)
        fun ns' key' => (hdeleted ns' key').2

theorem writesOf_append (items more : List (ReplayItem C)) (ns : String) (key : Bytes) :
    writesOf (items ++ more) ns key = writesOf items ns key ++ writesOf more ns key := by
  simp [writesOf]

/-- What the replay of the versions of one namespace keeps. -/
theorem Holds.writes (hk : E.Keeps records blank) {ns : String}
    (versions : List (Bytes × VersionRecord C)) (h : Holds records blank S index items) (hs : S ns)
    (hn : ∀ key,
      (writesOf (items ++ versions.map fun v => .writeVersion ns v.1 v.2) ns key).length < 2 ^ 64)
    (hrun : (versions.map fun v => ReplayItem.writeVersion ns v.1 v.2).foldlM (replayItem E) index =
      some index') :
    Holds records blank S index' (items ++ versions.map fun v => .writeVersion ns v.1 v.2) := by
  induction versions generalizing index items with
  | nil =>
    cases hrun
    rwa [List.map_nil, List.append_nil]
  | cons version versions ih =>
    obtain ⟨key, record⟩ := version
    rw [List.map_cons, List.append_cons] at hn ⊢
    rw [List.map_cons, List.foldlM_cons] at hrun
    obtain ⟨next, hstep, hrun⟩ := Option.bind_eq_some_iff.mp hrun
    refine ih ?_ hn hrun
    refine h.step hk hstep (fun _ _ _ he => by cases he) fun ns' key' record' he => ?_
    cases he
    have hlen := hn key
    rw [writesOf_append, writesOf_concat, ReplayItem.writes, if_pos ⟨rfl, rfl⟩,
      List.length_append, List.length_append, List.length_singleton] at hlen
    have hroom : (writesOf items ns key).length + 1 < 2 ^ 64 := by omega
    exact ⟨hs, hroom⟩

/-! ## What is captured -/

/-- In a list without duplicates one element at most has the label `b`. -/
theorem flatMap_label {α β γ : Type} [DecidableEq β] {label : α → β} {g : α → List γ}
    {xs : List α} {a : α} (hnodup : (xs.map label).Nodup) (ha : a ∈ xs) :
    (xs.flatMap fun x => if label a = label x then g x else []) = g a := by
  induction xs with
  | nil => cases ha
  | cons x xs ih =>
    rw [List.map_cons, List.nodup_cons] at hnodup
    rw [List.flatMap_cons]
    rcases List.mem_cons.mp ha with rfl | ha
    · have hnone : (xs.flatMap fun x => if label a = label x then g x else []) = [] := by
        refine List.flatMap_eq_nil_iff.mpr fun x hx => if_neg fun he => hnodup.1 ?_
        rw [he]
        exact List.mem_map_of_mem hx
      rw [if_pos rfl, hnone, List.append_nil]
    · have hne : label a ≠ label x := fun he => hnodup.1 (he ▸ List.mem_map_of_mem ha)
      rw [if_neg hne, List.nil_append, ih hnodup.2 ha]

/-- The records of all keys, each with its key. -/
def keyedRecords (keys : List (Bytes × List (VersionRecord C))) :
    List (Bytes × VersionRecord C) :=
  keys.flatMap fun k => k.2.map fun record => (k.1, record)

theorem NamespaceSnapshot.items_eq (ns : NamespaceSnapshot C) :
    ns.items = .createNamespace ns.name ns.config ns.createdAt ::
      (keyedRecords ns.keys).map fun v => .writeVersion ns.name v.1 v.2 := by
  rw [items, keyedRecords, List.map_flatMap]
  simp only [List.map_map]
  rfl

theorem writesOf_keyedRecords (ns name : String) (keys : List (Bytes × List (VersionRecord C)))
    (key : Bytes) :
    writesOf ((keyedRecords keys).map fun v => .writeVersion ns v.1 v.2) name key =
      if name = ns then keys.flatMap fun k => if key = k.1 then k.2 else [] else [] := by
  have hkey : ∀ k (versions : List (VersionRecord C)),
      writesOf ((versions.map fun record => (k, record)).map fun v =>
        ReplayItem.writeVersion ns v.1 v.2) name key =
      if name = ns then (if key = k then versions else []) else [] := by
    intro k versions
    induction versions with
    | nil => simp [writesOf]
    | cons record versions ih =>
      simp only [writesOf, List.map_cons, List.flatMap_cons] at ih ⊢
      rw [ih]
      by_cases hns : name = ns <;> by_cases hk : key = k <;> simp [ReplayItem.writes, hns, hk]
  induction keys with
  | nil => simp [writesOf, keyedRecords]
  | cons k keys ih =>
    rw [keyedRecords, List.flatMap_cons, List.map_append, writesOf_append, hkey]
    rw [keyedRecords] at ih
    rw [ih]
    by_cases hns : name = ns <;> simp [hns]

theorem writesOf_items (ns : NamespaceSnapshot C) (name : String) (key : Bytes) :
    writesOf ns.items name key =
      if name = ns.name then ns.keys.flatMap fun k => if key = k.1 then k.2 else [] else [] := by
  rw [ns.items_eq, ← writesOf_keyedRecords]
  rfl

/-- The records of a captured key, in order. -/
theorem writesOf_keys (hk : E.Keeps records blank) {ns : NamespaceSnapshot C}
    (hns : ns ∈ E.capture index) (key : Bytes) :
    (ns.keys.flatMap fun k => if key = k.1 then k.2 else []) =
      (records index ns.name key).map (·.2) := by
  by_cases hmem : ∃ k ∈ ns.keys, k.1 = key
  · obtain ⟨k, hk', rfl⟩ := hmem
    rw [flatMap_label (hk.keys index ns hns) hk', hk.captured index ns hns k hk']
  · have hnone : (ns.keys.flatMap fun k => if key = k.1 then k.2 else []) = [] := by
      refine List.flatMap_eq_nil_iff.mpr fun k hk' => if_neg fun he => hmem ⟨k, hk', he.symm⟩
    rw [hnone, (hk.missing index ns.name key ?_).1, List.map_nil]
    intro ns' hns' hname k hk' he
    have hsame : ns' = ns :=
      (List.inj_on_of_nodup_map (hk.names index)) hns' hns hname
    subst hsame
    exact hmem ⟨k, hk', he⟩

/-- The replay of a rekey writes the records of every key, in order. -/
theorem writesOf_rekeyItems (hk : E.Keeps records blank) (name : String) (key : Bytes) :
    writesOf (rekeyItems E index) name key = (records index name key).map (·.2) := by
  have hsplit : writesOf (rekeyItems E index) name key = (E.capture index).flatMap fun ns =>
      if name = ns.name then ns.keys.flatMap fun k => if key = k.1 then k.2 else [] else [] := by
    simp only [writesOf, rekeyItems, List.flatMap_assoc]
    exact List.flatMap_congr fun ns _ => writesOf_items ns name key
  rw [hsplit]
  by_cases hmem : ∃ ns ∈ E.capture index, ns.name = name
  · obtain ⟨ns, hns, rfl⟩ := hmem
    rw [flatMap_label (hk.names index) hns, writesOf_keys hk hns]
  · have hnone : ((E.capture index).flatMap fun ns =>
        if name = ns.name then ns.keys.flatMap fun k => if key = k.1 then k.2 else [] else []) =
        [] := by
      refine List.flatMap_eq_nil_iff.mpr fun ns hns => if_neg fun he => hmem ⟨ns, hns, he.symm⟩
    rw [hnone, (hk.missing index name key ?_).1, List.map_nil]
    exact fun ns hns hname => absurd ⟨ns, hns, hname⟩ hmem

/-! ## What a whole replay leaves -/

/-- A key nothing was written to is empty. -/
theorem Holds.empty_of_unwritten {ns : String} {key : Bytes} (h : Holds records blank S index items)
    (hs : S ns) (hnone : writesOf items ns key = []) :
    records index ns key = [] ∧ E.currentVersion index ns key = none := by
  obtain ⟨⟨hnumbers, -⟩, hcurrent⟩ := h ns hs key
  rw [hnone] at hnumbers hcurrent
  exact ⟨List.map_eq_nil_iff.mp hnumbers, hcurrent⟩

theorem holds_empty (hk : E.Keeps records blank) : Holds records blank S E.empty [] := by
  intro ns _ key
  rw [hk.emptyRecords, hk.emptyCurrent]
  exact ⟨⟨rfl, .nil⟩, rfl⟩

/-- A new namespace and all its versions. -/
theorem Holds.namespace (hk : E.Keeps records blank) {ns : String} {config : NamespaceConfig C}
    {createdAt : UInt64} (versions : List (Bytes × VersionRecord C))
    (h : Holds records blank S index items) (hs : S ns)
    (hfresh : ∀ key, records index ns key = [] ∧ E.currentVersion index ns key = none)
    (hn : ∀ key, (writesOf (items ++ ReplayItem.createNamespace ns config createdAt ::
      versions.map fun v => .writeVersion ns v.1 v.2) ns key).length < 2 ^ 64)
    (hrun : (ReplayItem.createNamespace ns config createdAt ::
      versions.map fun v => .writeVersion ns v.1 v.2).foldlM (replayItem E) index = some index') :
    Holds records blank S index' (items ++ ReplayItem.createNamespace ns config createdAt ::
      versions.map fun v => .writeVersion ns v.1 v.2) := by
  rw [List.foldlM_cons] at hrun
  obtain ⟨created, hcreate, hrun⟩ := Option.bind_eq_some_iff.mp hrun
  rw [List.append_cons] at hn ⊢
  refine Holds.writes hk versions ?_ hs hn hrun
  refine h.step hk hcreate (fun name config' createdAt' he => ?_) fun _ _ _ he => by cases he
  cases he
  exact hfresh

/-- What the replay of the captured namespaces keeps. -/
theorem Holds.snapshots (hk : E.Keeps records blank) (snapshots : List (NamespaceSnapshot C))
    (h : Holds records blank (fun _ => True) index items)
    (hnames : (snapshots.map (·.name)).Nodup)
    (hfresh : ∀ ns ∈ snapshots, ∀ key, writesOf items ns.name key = [])
    (hn : ∀ ns key, (writesOf (items ++ snapshots.flatMap (·.items)) ns key).length < 2 ^ 64)
    (hrun : (snapshots.flatMap (·.items)).foldlM (replayItem E) index = some index') :
    Holds records blank (fun _ => True) index' (items ++ snapshots.flatMap (·.items)) := by
  induction snapshots generalizing index items with
  | nil =>
    cases hrun
    rwa [List.flatMap_nil, List.append_nil]
  | cons ns snapshots ih =>
    rw [List.map_cons, List.nodup_cons] at hnames
    rw [List.flatMap_cons, ← List.append_assoc] at hn ⊢
    rw [List.flatMap_cons, List.foldlM_append] at hrun
    obtain ⟨next, hnext, hrun⟩ := Option.bind_eq_some_iff.mp hrun
    refine ih ?_ hnames.2 (fun other hother key => ?_) hn hrun
    · have hroom : ∀ key, (writesOf (items ++ ns.items) ns.name key).length < 2 ^ 64 := by
        intro key
        have hlen := hn ns.name key
        rw [writesOf_append, List.length_append] at hlen
        omega
      rw [ns.items_eq] at hnext hroom ⊢
      refine Holds.namespace hk (keyedRecords ns.keys) h trivial (fun key => ?_) hroom hnext
      exact h.empty_of_unwritten trivial (hfresh ns List.mem_cons_self key)
    · have hne : other.name ≠ ns.name := fun he => hnames.1 (he ▸ List.mem_map_of_mem hother)
      rw [writesOf_append, hfresh other (List.mem_cons_of_mem _ hother), writesOf_items, if_neg hne,
        List.append_nil]

/-- After a whole rekey every key has its records, numbered from 1. -/
theorem renumbered_rekeyItems (hk : E.Keeps records blank)
    (hlength : ∀ ns key, (records index ns key).length < 2 ^ 64)
    (hrun : replayed E (rekeyItems E index) = some index') (ns : String) (key : Bytes) :
    Renumbered blank ((records index ns key).map (·.2)) (records index' ns key) ∧
      E.currentVersion index' ns key = numbered (records index ns key).length := by
  have hn : ∀ ns key, (writesOf ([] ++ rekeyItems E index) ns key).length < 2 ^ 64 := by
    intro ns key
    rw [List.nil_append, writesOf_rekeyItems hk, List.length_map]
    exact hlength ns key
  have hholds := (holds_empty hk).snapshots hk (E.capture index) (hk.names index)
    (fun _ _ _ => rfl) hn hrun ns trivial key
  have hwrites : writesOf ([] ++ (E.capture index).flatMap (·.items)) ns key =
      (records index ns key).map (·.2) :=
    writesOf_rekeyItems hk ns key
  rwa [hwrites, List.length_map] at hholds

/-! ## What renumbering changes -/

/-- What a record shows besides its number and its times. -/
def VersionRecord.shown (record : VersionRecord C) :
    EntryState × Option Bytes × C.Metadata × String :=
  (record.state, record.value, record.metadata, record.actor)

section
variable {blank : Option Bytes × C.Metadata} {h h' : Versions C}
  {rs rs' : List (VersionRecord C)} {record replayed : VersionRecord C}

theorem Replayed.shown_iff (hr : Replayed blank record replayed) :
    replayed.shown = record.shown ↔
      (record.state = .deleted → (record.value, record.metadata) = blank) := by
  obtain ⟨hstate, hactor, -, hvalue, hmetadata⟩ := hr
  rw [VersionRecord.shown, VersionRecord.shown, hstate, hactor, hvalue, hmetadata]
  cases hs : record.state with
  | active => simp
  | deleted =>
    have hne : EntryState.deleted ≠ .active := by decide
    simp only [if_neg hne, Prod.mk.injEq, true_and, and_true, forall_const]
    constructor
    · rintro ⟨hv, hm⟩
      rw [← hv, ← hm]
    · intro he
      rw [← he]
      exact ⟨rfl, rfl⟩

theorem shown_iff_of_replayed (hr : List.Forall₂ (Replayed blank) rs rs') :
    rs'.map (·.shown) = rs.map (·.shown) ↔
      ∀ record ∈ rs, record.state = .deleted → (record.value, record.metadata) = blank := by
  induction hr with
  | nil => simp
  | cons hrecord _ ih =>
    rw [List.map_cons, List.map_cons, List.cons.injEq, hrecord.shown_iff, ih, List.forall_mem_cons]

theorem expiry_iff_of_replayed (hr : List.Forall₂ (Replayed blank) rs rs') :
    rs'.map (·.expiresAtMs) = rs.map (·.expiresAtMs) ↔
      ∀ record ∈ rs, record.expiresAtMs = none := by
  induction hr with
  | nil => simp
  | cons hrecord _ ih =>
    rw [List.map_cons, List.map_cons, List.cons.injEq, hrecord.expiry, ih, List.forall_mem_cons,
      eq_comm]

theorem map_pair_eq_iff {α β γ : Type} {f : α → β} {g : α → γ} {xs ys : List α} :
    xs.map (fun a => (f a, g a)) = ys.map (fun a => (f a, g a)) ↔
      xs.map f = ys.map f ∧ xs.map g = ys.map g := by
  constructor
  · intro he
    have hf := congrArg (List.map Prod.fst) he
    have hg := congrArg (List.map Prod.snd) he
    simp only [List.map_map] at hf hg
    exact ⟨hf, hg⟩
  · rintro ⟨hf, hg⟩
    rw [← List.zip_map', ← List.zip_map', hf, hg]

theorem getLast?_firstNumbers (n : Nat) : (firstNumbers n).getLast? = numbered n := by
  cases n with
  | zero => rfl
  | succ n =>
    rw [firstNumbers, List.range_succ, List.map_append, List.map_singleton,
      List.getLast?_append, numbered, if_neg (Nat.succ_ne_zero n)]
    rfl

/-- The numbers are 1 to the number of records, and a tombstone holds what a new one holds. -/
def Untrimmed (blank : Option Bytes × C.Metadata) (h : Versions C) : Prop :=
  h.map (·.1) = firstNumbers h.length ∧
    ∀ v ∈ h, v.2.state = .deleted → (v.2.value, v.2.metadata) = blank

/-- Renumbering is without effect only on a history that starts at 1 and has no gap. -/
theorem Renumbered.same_iff (hr : Renumbered blank (h.map (·.2)) h') :
    (h'.map fun v => (v.1, v.2.shown)) = (h.map fun v => (v.1, v.2.shown)) ↔
      Untrimmed blank h := by
  obtain ⟨hnumbers, hrecords⟩ := hr
  have hshown := shown_iff_of_replayed hrecords
  rw [List.map_map, List.map_map, List.forall_mem_map] at hshown
  rw [List.length_map] at hnumbers
  rw [map_pair_eq_iff, hnumbers, Untrimmed, eq_comm]
  exact and_congr_right fun _ => hshown

theorem Untrimmed.current (hu : Untrimmed blank h) : h.getLast?.map (·.1) = numbered h.length := by
  rw [← List.getLast?_map, hu.1, getLast?_firstNumbers]

end

end

end Shroudb
