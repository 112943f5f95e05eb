import Mathlib.Data.List.Nodup
import StagedPipeline.Toml.Table

/-!
# Tables are put together from their sections

The sections of a table are its pairs, and then, below a header each, the sections of the tables in
it. Added one after the other, they make the table again (`ofSections_sections`), if no key comes
twice and no pair behind a table. While they are added, the table that grows is the last one of the
last one … of the outermost; a `Trail` tells which tables are around it.
-/

namespace StagedPipeline.Toml

variable {entries held before : Entries} {key : String} {node : Node} {more : List Section}

/-- The keys of a table. -/
def keys (entries : Entries) : List String :=
  entries.map Prod.fst

/-! ### Sections of a table -/

/-- Whether an entry is written below a header of its own. -/
def Node.isTable : Node → Bool
  | .table _ _ => true
  | _ => false

/-- The pairs among some entries. -/
def pairEntries (entries : Entries) : Entries :=
  entries.filter fun entry => !entry.2.isTable

/-- The tables among some entries. -/
def tableEntries (entries : Entries) : Entries :=
  entries.filter fun entry => entry.2.isTable

/-- An entry as a pair without dots. -/
def pairOf (entry : String × Node) : Pair :=
  ⟨[], entry.1, entry.2⟩

mutual

/-- The sections of a table in the table at a path. -/
def nodeSections (path : List String) (key : String) : Node → List Section
  | .table _ entries =>
    ⟨.table path key, (pairEntries entries).map pairOf⟩ :: tableSections (path ++ [key]) entries
  | _ => []

/-- The sections of the tables among the entries of the table at a path. -/
def tableSections (path : List String) : Entries → List Section
  | [] => []
  | (key, node) :: rest => nodeSections path key node ++ tableSections path rest

end

/-- The sections of an outermost table. -/
def sections (entries : Entries) : List Section :=
  ⟨.outermost, (pairEntries entries).map pairOf⟩ :: tableSections [] entries

/-- No key comes twice, and the pairs stand in front of the tables. -/
structure Ordered (entries : Entries) : Prop where
  nodup : (keys entries).Nodup
  pairsFirst : entries.Pairwise fun a b => a.2.isTable = true → b.2.isTable = true

mutual

/-- Every table is defined by its header and is in order. -/
def Node.Plain : Node → Prop
  | .table origin entries => origin = .defined ∧ Ordered entries ∧ PlainEntries entries
  | _ => True

/-- Every table among the entries is plain. -/
def PlainEntries : Entries → Prop
  | [] => True
  | (_, node) :: rest => node.Plain ∧ PlainEntries rest

end

theorem filter_append_filter_of_pairwise {α : Type} {p : α → Bool} {l : List α}
    (h : l.Pairwise fun a b => p a = true → p b = true) :
    (l.filter fun a => !p a) ++ l.filter p = l := by
  induction l with
  | nil => rfl
  | cons a l ih =>
    obtain ⟨ha, hl⟩ := List.pairwise_cons.mp h
    cases hpa : p a with
    | true =>
      have hall : ∀ b ∈ l, p b = true := fun b hb => ha b hb hpa
      have hnone : l.filter (fun b => !p b) = [] := by
        rw [List.filter_eq_nil_iff]
        intro b hb
        simp [hall b hb]
      simp [hpa, hnone, List.filter_eq_self.mpr hall]
    | false => simp [hpa, ih hl]

theorem Ordered.pairEntries_append (h : Ordered entries) :
    pairEntries entries ++ tableEntries entries = entries :=
  filter_append_filter_of_pairwise h.pairsFirst

theorem Ordered.nodup_pairEntries (h : Ordered entries) : (keys (pairEntries entries)).Nodup :=
  h.nodup.sublist (List.filter_sublist.map Prod.fst)

theorem Ordered.nodup_append (h : Ordered entries) :
    (keys (pairEntries entries ++ tableEntries entries)).Nodup := by
  rw [h.pairEntries_append]
  exact h.nodup

/-! ### One entry -/

theorem alter_of_notMem (f : Option Node → Option Node) (h : key ∉ keys entries) :
    alter key f entries = (f none).map fun node => entries ++ [(key, node)] := by
  induction entries with
  | nil => rfl
  | cons entry entries ih =>
    have hne : key ≠ entry.1 := List.ne_of_not_mem_cons h
    have hrest : key ∉ keys _ := List.not_mem_of_not_mem_cons h
    obtain ⟨other, node⟩ := entry
    rw [alter, if_neg (Ne.symm hne), ih hrest, Option.map_map]
    rfl

theorem alter_last (f : Option Node → Option Node) (h : key ∉ keys before) :
    alter key f (before ++ [(key, node)]) =
      (f (some node)).map fun node => before ++ [(key, node)] := by
  induction before with
  | nil =>
    rw [List.nil_append, alter, if_pos rfl]
    rfl
  | cons entry before ih =>
    have hne : key ≠ entry.1 := List.ne_of_not_mem_cons h
    have hrest : key ∉ keys _ := List.not_mem_of_not_mem_cons h
    obtain ⟨other, held⟩ := entry
    rw [List.cons_append, alter, if_neg (Ne.symm hne), ih hrest, Option.map_map]
    rfl

/-- An entry that keeps the keys apart has a new one. -/
theorem notMem_keys_of_nodup {entry : String × Node}
    (h : (keys (held ++ entry :: entries)).Nodup) : entry.1 ∉ keys held := by
  rw [keys, List.map_append, List.map_cons] at h
  exact fun hmem => (List.nodup_middle.mp h).notMem (List.mem_append_left _ hmem)

theorem addPairs_of_nodup (h : (keys (held ++ entries)).Nodup) :
    addPairs (entries.map pairOf) .defined held = some (.table .defined (held ++ entries)) := by
  induction entries generalizing held with
  | nil => rw [List.append_nil, List.map_nil, addPairs]
  | cons entry entries ih =>
    have hnew := notMem_keys_of_nodup h
    have hadd : (pairOf entry).add .defined held = some (.table .defined (held ++ [entry])) := by
      simp [Pair.add, pairOf, reach, alter_of_notMem _ hnew]
    have hrest : (keys (held ++ [entry] ++ entries)).Nodup := by simpa using h
    rw [List.map_cons, addPairs, hadd]
    simpa using ih hrest

/-! ### The table at the end of a trail -/

/-- The tables around a table, from the outside in: of each, the entries in front of its last one,
and the key of that. -/
abbrev Trail := List (Entries × String)

/-- The path that a trail follows. -/
def Trail.path (trail : Trail) : List String :=
  trail.map Prod.snd

/-- The outermost table, given the one at the end of the trail. -/
def Trail.plug : Trail → Entries → Entries
  | [], entries => entries
  | (before, key) :: trail, entries => before ++ [(key, .table .defined (plug trail entries))]

/-- The key of the last entry is the key of no other. -/
def Trail.Distinct (trail : Trail) : Prop :=
  ∀ frame ∈ trail, frame.2 ∉ keys frame.1

theorem Trail.plug_append (trail : Trail) (before : Entries) (key : String) (entries : Entries) :
    Trail.plug (trail ++ [(before, key)]) entries =
      trail.plug (before ++ [(key, .table .defined entries)]) := by
  induction trail with
  | nil => rfl
  | cons frame trail ih =>
    obtain ⟨outer, outerKey⟩ := frame
    rw [List.cons_append, Trail.plug, ih, Trail.plug]

theorem reach_plug {trail : Trail} {f : Origin → Entries → Option Node} {changed : Entries}
    (h : trail.Distinct) (hf : f .defined entries = some (.table .defined changed)) :
    reach false f trail.path .defined (trail.plug entries) =
      some (.table .defined (trail.plug changed)) := by
  induction trail with
  | nil => exact hf
  | cons frame trail ih =>
    obtain ⟨before, key⟩ := frame
    obtain ⟨hkey, htrail⟩ := List.forall_mem_cons.mp h
    have hinner := ih htrail
    change reach false f (key :: Trail.path trail) .defined
      (before ++ [(key, .table .defined (Trail.plug trail entries))]) = _
    rw [reach, alter_last _ hkey]
    simp [hinner, Trail.plug]

theorem apply_table {trail : Trail} {pairs : Entries} (h : trail.Distinct)
    (hkey : key ∉ keys held) (hpairs : (keys pairs).Nodup) :
    Section.apply ⟨.table trail.path key, pairs.map pairOf⟩ (trail.plug held) =
      some (Trail.plug (trail ++ [(held, key)]) pairs) := by
  have hadd : addPairs (pairs.map pairOf) .defined [] = some (.table .defined pairs) :=
    addPairs_of_nodup hpairs
  rw [Trail.plug_append]
  simp only [Section.apply]
  rw [@reach_plug held trail _ (held ++ [(key, .table .defined pairs)]) h]
  simp [alter_of_notMem _ hkey, hadd]

theorem Trail.Distinct.append {trail : Trail} (h : trail.Distinct) (hkey : key ∉ keys held) :
    Trail.Distinct (trail ++ [(held, key)]) := by
  intro frame hframe
  rcases List.mem_append.mp hframe with hframe | hframe
  · exact h frame hframe
  · obtain rfl := List.mem_singleton.mp hframe
    exact hkey

theorem Trail.path_append (trail : Trail) (held : Entries) (key : String) :
    Trail.path (trail ++ [(held, key)]) = trail.path ++ [key] := by
  simp [Trail.path]

/-! ### Sections one after the other -/

theorem ofSections_cons {s : Section} {changed : Entries} (h : s.apply held = some changed)
    (more : List Section) : ofSections (s :: more) held = ofSections more changed := by
  rw [ofSections, h]
  rfl

mutual

/-- The sections of a table add it behind the entries that are there. -/
theorem ofSections_nodeSections (trail : Trail) (held : Entries) (key : String)
    (more : List Section) (h : trail.Distinct) (hkey : key ∉ keys held) :
    ∀ node : Node, node.Plain → node.isTable = true →
      ofSections (nodeSections trail.path key node ++ more) (trail.plug held) =
        ofSections more (trail.plug (held ++ [(key, node)]))
  | .table origin entries, hplain, _ => by
    obtain ⟨rfl, hordered, hinner⟩ := hplain
    have hmore := ofSections_tableSections (trail ++ [(held, key)]) (pairEntries entries) more
      (h.append hkey) entries hinner hordered.nodup_append
    rw [Trail.path_append, hordered.pairEntries_append] at hmore
    rw [nodeSections, List.cons_append,
      ofSections_cons (apply_table h hkey hordered.nodup_pairEntries), hmore, Trail.plug_append]

/-- So do the sections of all the tables among some entries. -/
theorem ofSections_tableSections (trail : Trail) (held : Entries) (more : List Section)
    (h : trail.Distinct) :
    ∀ entries : Entries, PlainEntries entries → (keys (held ++ tableEntries entries)).Nodup →
      ofSections (tableSections trail.path entries ++ more) (trail.plug held) =
        ofSections more (trail.plug (held ++ tableEntries entries))
  | [], _, _ => by
    rw [tableEntries, List.filter_nil, List.append_nil]
    rfl
  | (key, node) :: rest, hplain, hnodup => by
    obtain ⟨hnode, hrest⟩ := hplain
    cases htable : node.isTable with
    | true =>
      have hcons : tableEntries ((key, node) :: rest) = (key, node) :: tableEntries rest :=
        List.filter_cons_of_pos htable
      rw [hcons] at hnodup ⊢
      have hkey : key ∉ keys held := notMem_keys_of_nodup hnodup
      have hnodup' : (keys (held ++ [(key, node)] ++ tableEntries rest)).Nodup := by
        simpa using hnodup
      rw [tableSections, List.append_assoc,
        ofSections_nodeSections trail held key _ h hkey node hnode htable,
        ofSections_tableSections trail _ more h rest hrest hnodup', List.append_assoc,
        List.singleton_append]
    | false =>
      have hcons : tableEntries ((key, node) :: rest) = tableEntries rest :=
        List.filter_cons_of_neg (by simp [htable])
      have hnone : nodeSections trail.path key node = [] := by
        cases node with
        | table => contradiction
        | _ => rfl
      rw [hcons] at hnodup ⊢
      rw [tableSections, hnone, List.nil_append]
      exact ofSections_tableSections trail held more h rest hrest hnodup

end

/-- A table is made again by its sections. -/
theorem ofSections_sections (hordered : Ordered entries) (hplain : PlainEntries entries) :
    ofSections (sections entries) [] = some entries := by
  have hpairs : Section.apply ⟨.outermost, (pairEntries entries).map pairOf⟩ [] =
      some (pairEntries entries) := by
    have hadd : addPairs ((pairEntries entries).map pairOf) .defined [] =
        some (.table .defined (pairEntries entries)) := addPairs_of_nodup hordered.nodup_pairEntries
    simp [Section.apply, hadd]
  have htables := ofSections_tableSections [] (pairEntries entries) [] (by nofun) entries hplain
    hordered.nodup_append
  rw [List.append_nil, hordered.pairEntries_append] at htables
  rw [sections, ofSections_cons hpairs]
  exact htables

end StagedPipeline.Toml
