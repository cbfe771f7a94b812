import Argent.Resolve.OutputNames

/-!
# Output names are distinct

* `freeName_not_mem`           the loop over the suffixes ends with a name that is not used;
* `AssignedNames.Distinct`        no two declarations have one name, and every name is occupied;
* `NamesChosen`              the names after some steps, and what each was chosen to avoid;
* `selectedDeclarationNames_ok`      **every selected declaration has a name of its own: an actor its
                               own one, another declaration none that is local in a different file,
                               and a renamed one none that is authored**.
-/

set_option linter.unusedSectionVars false

namespace Argent.Resolve
open Argent.Fallible

/-- the loop over the suffixes ends with a name that is not used -/
theorem freeName_not_mem (used : BTreeSet String) (sourceName : String) :
    freeName used sourceName ∉ used :=
  Nat.find_spec (exists_free used sourceName)

/-! ## no name is given twice -/

/-- no two declarations have one name, and every name is occupied -/
structure AssignedNames.Distinct (assigned : AssignedNames) : Prop where
  occupied : ∀ id name, assigned.names.get id = some name → name ∈ assigned.occupied
  inj : ∀ id id' name, assigned.names.get id = some name → assigned.names.get id' = some name →
    id = id'

namespace AssignedNames

theorem Distinct.empty : Distinct ⟨∅, ∅⟩ := by
  refine ⟨fun id name h => ?_, fun id id' name h => ?_⟩
  · cases h
  · cases h

theorem Distinct.insert {assigned : AssignedNames} (h : assigned.Distinct) (id : DeclId)
    {name : String} (hname : name ∉ assigned.occupied) :
    Distinct ⟨assigned.names.insert id name, insert name assigned.occupied⟩ := by
  have hold : ∀ id' name', (assigned.names.insert id name).get id' = some name' →
      id' = id ∧ name' = name ∨ assigned.names.get id' = some name' := by
    intro id' name' hget
    rw [BTreeMap.get_insert] at hget
    split_ifs at hget with heq
    · exact .inl ⟨heq, (Option.some.inj hget).symm⟩
    · exact .inr hget
  constructor
  · intro id' name' hget
    obtain ⟨_, rfl⟩ | hget := hold id' name' hget
    · exact BTreeSet.mem_insert.mpr (.inl rfl)
    · exact BTreeSet.mem_insert.mpr (.inr (h.occupied id' name' hget))
  · intro id₁ id₂ name' h₁ h₂
    obtain ⟨hid₁, hname₁⟩ | hold₁ := hold id₁ name' h₁
    · obtain ⟨hid₂, _⟩ | hold₂ := hold id₂ name' h₂
      · rw [hid₁, hid₂]
      · exact absurd (hname₁ ▸ h.occupied id₂ name' hold₂) hname
    · obtain ⟨_, hname₂⟩ | hold₂ := hold id₂ name' h₂
      · exact absurd (hname₂ ▸ h.occupied id₁ name' hold₁) hname
      · exact h.inj id₁ id₂ name' hold₁ hold₂

end AssignedNames

namespace ResolvedModules
variable {resolved : ResolvedModules}
variable {declarations : BTreeSet DeclId} {actors : List DeclId}

/-- a chosen name is not occupied and not local in another file; one that is not the source name is
not authored either -/
theorem outputName_avoids (declarations : BTreeSet DeclId) (occupied : BTreeSet String) (id : DeclId)
    {name : String}
    (h : resolved.outputName declarations occupied id = name) :
    name ∉ occupied ∧ name ∉ resolved.foreignLocals declarations id ∧
      (name ≠ resolved.sourceName id → ∀ other ∈ declarations, name ≠ resolved.sourceName other) := by
  unfold outputName at h
  dsimp only at h
  split_ifs at h with htaken
  · have hfree := freeName_not_mem ((occupied.extend (declarations.toList.map resolved.sourceName)).extend
      (resolved.foreignLocals declarations id).toList) (resolved.sourceName id)
    rw [h, BTreeSet.mem_extend, BTreeSet.mem_extend, not_or, not_or] at hfree
    refine ⟨hfree.1.1, hfree.2, fun _ other hother heq => hfree.1.2 ?_⟩
    rw [heq]
    exact List.mem_map_of_mem hother
  · obtain ⟨hoccupied, hforeign⟩ := not_or.mp htaken
    rw [h] at hoccupied hforeign
    exact ⟨hoccupied, hforeign, fun hne => absurd h.symm hne⟩

/-- the actors' names and the names of the declarations in `done`; each of the latter was chosen -/
structure NamesChosen (resolved : ResolvedModules) (declarations : BTreeSet DeclId)
    (actors done : List DeclId) (assigned : AssignedNames) : Prop extends assigned.Distinct where
  named : ∀ id, assigned.names.contains id = true ↔ id ∈ actors ∨ id ∈ done
  kept : ∀ actor ∈ actors, assigned.names.get actor = some (resolved.sourceName actor)
  chosen : ∀ id ∉ actors, ∀ name, assigned.names.get id = some name →
    ∃ occupied, resolved.outputName declarations occupied id = name

theorem namesChosen_actors (hdistinct : (actors.map resolved.sourceName).Nodup) :
    resolved.NamesChosen declarations actors [] (actors.foldl resolved.nameActor ⟨∅, ∅⟩) := by
  have hactors : ∀ (ids done : List DeclId) (assigned : AssignedNames),
      ((done ++ ids).map resolved.sourceName).Nodup → assigned.Distinct →
      (∀ name ∈ assigned.occupied, name ∈ done.map resolved.sourceName) →
      (∀ actor ∈ done, assigned.names.get actor = some (resolved.sourceName actor)) →
      (ids.foldl resolved.nameActor assigned).Distinct ∧ ∀ actor ∈ done ++ ids,
        (ids.foldl resolved.nameActor assigned).names.get actor =
          some (resolved.sourceName actor) := by
    intro ids
    induction ids with
    | nil =>
      intro done assigned _ hassigned _ hkept
      rw [List.append_nil]
      exact ⟨hassigned, hkept⟩
    | cons actor ids ih =>
      intro done assigned hnodup hassigned hoccupied hkept
      rw [List.append_cons] at hnodup ⊢
      have hnew : resolved.sourceName actor ∉ done.map resolved.sourceName := by
        rw [List.map_append, List.map_append, List.append_assoc] at hnodup
        exact fun hmem => List.disjoint_of_nodup_append hnodup hmem
          (List.mem_append_left _ (List.mem_singleton_self _))
      apply ih (done ++ [actor]) (resolved.nameActor assigned actor) hnodup
      · exact hassigned.insert actor fun hmem => hnew (hoccupied _ hmem)
      · intro name hname
        rw [List.map_append]
        obtain rfl | hname := BTreeSet.mem_insert.mp hname
        · exact List.mem_append_right _ (List.mem_singleton_self _)
        · exact List.mem_append_left _ (hoccupied name hname)
      · intro actor' hactor'
        show (assigned.names.insert actor _).get actor' = _
        rw [BTreeMap.get_insert]
        split_ifs with heq
        · rw [heq]
        · obtain hactor' | hactor' := List.mem_append.mp hactor'
          · exact hkept actor' hactor'
          · exact absurd (List.mem_singleton.mp hactor') heq
  obtain ⟨hnames, hkept⟩ := hactors actors [] ⟨∅, ∅⟩ hdistinct .empty
    (fun name h => absurd h (BTreeSet.not_mem_empty name))
    (fun actor h => absurd h List.not_mem_nil)
  have hnamed : ∀ id, (actors.foldl resolved.nameActor ⟨∅, ∅⟩).names.contains id = true ↔
      id ∈ actors := by
    intro id
    rw [(@foldl_nameActor resolved actors ⟨∅, ∅⟩).1]
    exact or_iff_right Bool.false_ne_true
  refine { toDistinct := hnames, named := fun id => ?_, kept := hkept, chosen := ?_ }
  · rw [hnamed]
    exact (or_iff_left List.not_mem_nil).symm
  · intro id hid name hget
    refine absurd ((hnamed id).mp ?_) hid
    show ((actors.foldl resolved.nameActor ⟨∅, ∅⟩).names.get id).isSome = true
    rw [hget]
    rfl

theorem NamesChosen.step {done : List DeclId} {assigned : AssignedNames}
    (h : resolved.NamesChosen declarations actors done assigned) (id : DeclId) :
    resolved.NamesChosen declarations actors (done ++ [id])
      (resolved.nameDeclaration declarations assigned id) := by
  unfold nameDeclaration
  split_ifs with hcontains
  · refine { h with named := fun id' => ?_ }
    rw [h.named, List.mem_append, List.mem_singleton, ← or_assoc]
    refine ⟨Or.inl, fun hmem => hmem.elim (fun hold => hold) fun heq => ?_⟩
    rw [heq]
    exact (h.named id).mp hcontains
  · have hactor : id ∉ actors := fun hmem => hcontains ((h.named id).mpr (.inl hmem))
    obtain ⟨hfree, _⟩ := outputName_avoids declarations assigned.occupied id rfl
    refine { toDistinct := h.insert id hfree, named := fun id' => ?_, kept := ?_, chosen := ?_ }
    · show ((assigned.names.insert id _).get id').isSome = true ↔ _
      rw [BTreeMap.get_insert, List.mem_append, List.mem_singleton, ← or_assoc, ← h.named]
      split_ifs with heq
      · exact ⟨fun _ => .inr heq, fun _ => rfl⟩
      · exact (or_iff_left heq).symm
    · intro actor hmem
      have hne : actor ≠ id := fun heq => hactor (heq ▸ hmem)
      rw [BTreeMap.get_insert_of_ne hne]
      exact h.kept actor hmem
    · intro id' hid' name hget
      rw [BTreeMap.get_insert] at hget
      split_ifs at hget with heq
      · rw [heq]
        exact ⟨assigned.occupied, Option.some.inj hget⟩
      · exact h.chosen id' hid' name hget

theorem NamesChosen.foldl {done ids : List DeclId} {assigned : AssignedNames}
    (h : resolved.NamesChosen declarations actors done assigned) :
    resolved.NamesChosen declarations actors (done ++ ids)
      (ids.foldl (resolved.nameDeclaration declarations) assigned) := by
  induction ids generalizing done assigned with
  | nil =>
    rw [List.append_nil]
    exact h
  | cons id ids ih =>
    rw [List.append_cons]
    exact ih (h.step id)

theorem mem_foreignLocals {id : DeclId} {name : String} :
    name ∈ resolved.foreignLocals declarations id ↔ ∃ owner ∈ declarations,
      resolved.fileOf owner ≠ resolved.fileOf id ∧ name ∈ resolved.reservedLocalNames owner := by
  unfold foreignLocals
  rw [BTreeSet.mem_ofList, List.mem_flatMap]
  simp only [List.mem_filter, decide_eq_true_eq, and_assoc, BTreeSet.mem_def]

theorem mem_orderedDeclarations {id : DeclId} :
    id ∈ resolved.orderedDeclarations declarations ↔ id ∈ declarations :=
  (List.mergeSort_perm _ _).mem_iff

/-- the names of an app's declarations, or of those of the root module -/
structure NamesOwn (resolved : ResolvedModules) (declarations : BTreeSet DeclId)
    (actors : List DeclId) (names : BTreeMap DeclId String) : Prop where
  named : ∀ id, names.contains id = true ↔ id ∈ actors ∨ id ∈ declarations
  distinct : ∀ id id' name, names.get id = some name → names.get id' = some name → id = id'
  kept : ∀ actor ∈ actors, names.get actor = some (resolved.sourceName actor)
  local_free : ∀ id ∉ actors, ∀ name, names.get id = some name → ∀ owner ∈ declarations,
    resolved.fileOf owner ≠ resolved.fileOf id → name ∉ resolved.reservedLocalNames owner
  renamed_fresh : ∀ id ∉ actors, ∀ name, names.get id = some name →
    name ≠ resolved.sourceName id → ∀ other ∈ declarations, name ≠ resolved.sourceName other

/-- **every selected declaration has a name of its own** -/
theorem selectedDeclarationNames_ok {selected : Option DeclId}
    (hdeclarations : resolved.selectedDeclarations selected = .ok declarations)
    (hdistinct : (actors.map resolved.sourceName).Nodup) :
    ∃ names, resolved.selectedDeclarationNames selected actors = .ok names ∧
      resolved.NamesOwn declarations actors names := by
  have hchosen : resolved.NamesChosen declarations actors
      ([] ++ resolved.orderedDeclarations declarations) _ := (namesChosen_actors hdistinct).foldl
  rw [List.nil_append] at hchosen
  refine ⟨_, bind_eq_ok.mpr ⟨declarations, hdeclarations, rfl⟩, ?_⟩
  refine ⟨fun id => ?_, hchosen.inj, hchosen.kept, ?_, fun id hid name hget => ?_⟩
  · rw [hchosen.named, mem_orderedDeclarations]
  · intro id hid name hget owner howner hpath hlocal
    obtain ⟨occupied, hname⟩ := hchosen.chosen id hid name hget
    obtain ⟨_, hforeign, _⟩ := outputName_avoids declarations occupied id hname
    exact hforeign (mem_foreignLocals.mpr ⟨owner, howner, hpath, hlocal⟩)
  · obtain ⟨occupied, hname⟩ := hchosen.chosen id hid name hget
    exact (outputName_avoids declarations occupied id hname).2.2

end ResolvedModules

end Argent.Resolve
