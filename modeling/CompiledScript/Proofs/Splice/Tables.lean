import CompiledScript.Proofs.Definition.Placement
import CompiledScript.Proofs.Saved
import CompiledScript.Proofs.Splice.Calls

/-!
# What the tables of a saved script hold

A saved script has one entry for each definition that the scan has found, in the
table for its sort.  What is loaded of an entry stands under the key of its
definition, with the namespace and the argument specification of the definition
and a block equal to the one that was compiled for it.

The definitions of both sorts are mixed in a script and apart in the tables.  They
are put together again by giving each definition of the scan the body that was
compiled for it: the bodies of the procedures among them are those of the one table
in order, and the bodies of the class members those of the other.
-/

set_option autoImplicit false

namespace CompiledScript

variable {σ : Type} {host : Host σ}

/-- A body that stands under a key for a definition that was compiled to a block. -/
structure Definition.Served (definition : Definition) (block : Block)
    (entry : DefinitionKey × PrecompiledBody) : Prop where
  key : definition.key = entry.1
  scope : definition.scope = entry.2.scope
  arguments : definition.arguments = entry.2.arguments
  block : block.Alike Literal.Same entry.2.block

/-! ## One entry -/

theorem ScanResult.kind_of_mem_procedures {result : ScanResult} {definition : Definition}
    (found : definition ∈ result.procedures) : definition.kind = .procedure := by
  have apart := (List.mem_filter.mp found).2
  cases shown : definition.kind with
  | procedure => rfl
  | member kind className =>
    rw [shown] at apart
    cases apart

theorem ScanResult.map_membersWithClass (result : ScanResult) :
    result.membersWithClass.map (fun member => member.2.2) = result.members := by
  rw [membersWithClass, List.map_filterMap, members, ← List.filterMap_eq_filter]
  refine List.filterMap_congr fun definition _ => ?_
  obtain ⟨name, scope, arguments, body, kind, line⟩ := definition
  cases kind with
  | procedure => rfl
  | member kind className => rfl

theorem ScanResult.mem_membersWithClass {result : ScanResult}
    {member : MethodKind × String × Definition} (found : member ∈ result.membersWithClass) :
    member.2.2 ∈ result.definitions ∧ member.2.2.kind = .member member.1 member.2.1 := by
  obtain ⟨definition, listed, made⟩ := List.mem_filterMap.mp found
  cases shown : definition.kind with
  | procedure =>
    rw [shown] at made
    cases made
  | member kind className =>
    rw [shown] at made
    cases made
    exact ⟨listed, shown⟩

/-- What is loaded of the entry of a procedure serves its definition. -/
theorem Definition.served_procedure {dialect : Dialect} {source : String} {definition : Definition}
    {entry loaded : ProcedureEntry} (found : definition ∈ (scan source dialect).procedures)
    (belongs : Save.ProcedureOf host definition entry) (same : entry.Same loaded) :
    definition.Served entry.body
      (.procedure loaded.name, ⟨loaded.scope, loaded.arguments, loaded.body⟩) where
  key := by rw [key, ScanResult.kind_of_mem_procedures found, ← belongs.name, same.name]
  scope := belongs.scope.symm.trans same.scope
  arguments := belongs.arguments.symm.trans same.arguments
  block := same.body

/-- What is loaded of the entry of a class member serves its definition. -/
theorem Definition.served_method {dialect : Dialect} {source : String}
    {member : MethodKind × String × Definition} {entry loaded : MethodEntry}
    (found : member ∈ (scan source dialect).membersWithClass)
    (belongs : Save.MethodOf host member entry) (same : entry.Same loaded) :
    member.2.2.Served entry.body (.member loaded.className loaded.kind loaded.name,
      ⟨loaded.className, loaded.arguments, loaded.body⟩) := by
  obtain ⟨listed, kind⟩ := ScanResult.mem_membersWithClass found
  have placed := scan_placed listed
  refine ⟨?_, ?_, belongs.arguments.symm.trans same.arguments, same.body⟩
  · rw [Definition.key, kind, ← same.className, ← same.kind, ← same.name, belongs.className,
      belongs.kind, belongs.name]
  · rw [Definition.Placed, kind] at placed
    rw [placed, ← same.className, belongs.className]

/-! ## Both tables -/

/-- The definitions of a scan in order, each with the body that was compiled for it. -/
structure Container.Compiled (saved : Container) (result : ScanResult)
    (pairs : List (Definition × Block)) : Prop where
  definitions : pairs.map Prod.fst = result.definitions
  procedures : (pairs.filter fun pair => !pair.1.kind.isMember).map Prod.snd =
    saved.procedures.map ProcedureEntry.body
  members : (pairs.filter fun pair => pair.1.kind.isMember).map Prod.snd =
    saved.methods.map MethodEntry.body

/-- Every definition of a script that was saved has a body in the tables. -/
theorem Container.SavedFrom.exists_compiled {dialect : Dialect} {source : String}
    {world : World σ} {saved : Container} (savedFrom : saved.SavedFrom host dialect source world) :
    ∃ pairs, saved.Compiled (scan source dialect) pairs := by
  have procedures := savedFrom.procedures.length_eq
  have methods := savedFrom.methods.length_eq
  rw [← List.length_map (fun member => member.2.2), ScanResult.map_membersWithClass] at methods
  obtain ⟨pairs, definitions, members, others⟩ := Pairing.exists_parts
    (fun definition : Definition => definition.kind.isMember) (scan source dialect).definitions
    (methods.trans (List.length_map MethodEntry.body).symm)
    (procedures.trans (List.length_map ProcedureEntry.body).symm)
  exact ⟨pairs, definitions, others, members⟩

namespace Container.Compiled

variable {dialect : Dialect} {source : String} {world : World σ} {saved container : Container}
  {pairs : List (Definition × Block)}

/-- The procedures of the scan have the entries of the first table, in order. -/
theorem procedures_entered (compiled : saved.Compiled (scan source dialect) pairs)
    (savedFrom : saved.SavedFrom host dialect source world) :
    List.Forall₂ (fun pair entry => (pair.1 ∈ (scan source dialect).procedures ∧
        Save.ProcedureOf host pair.1 entry) ∧ pair.2 = entry.body)
      (pairs.filter fun pair => !pair.1.kind.isMember) saved.procedures := by
  have first : (pairs.filter fun pair => !pair.1.kind.isMember).map Prod.fst =
      (scan source dialect).procedures := by
    rw [ScanResult.procedures, ← compiled.definitions, List.filter_map]
    rfl
  exact Pairing.of_parts first compiled.procedures (Pairing.imp_of_mem savedFrom.procedures
    fun definition found entry _ belongs => And.intro found belongs)

/-- The class members of the scan have the entries of the second table, in order. -/
theorem members_entered (compiled : saved.Compiled (scan source dialect) pairs)
    (savedFrom : saved.SavedFrom host dialect source world) :
    List.Forall₂ (fun pair entry => (∃ member ∈ (scan source dialect).membersWithClass,
        member.2.2 = pair.1 ∧ Save.MethodOf host member entry) ∧ pair.2 = entry.body)
      (pairs.filter fun pair => pair.1.kind.isMember) saved.methods := by
  have first : (pairs.filter fun pair => pair.1.kind.isMember).map Prod.fst =
      (scan source dialect).membersWithClass.map fun member => member.2.2 := by
    rw [ScanResult.map_membersWithClass, ScanResult.members, ← compiled.definitions,
      List.filter_map]
    rfl
  have methods : List.Forall₂ (fun definition entry =>
      ∃ member ∈ (scan source dialect).membersWithClass,
        member.2.2 = definition ∧ Save.MethodOf host member entry)
      ((scan source dialect).membersWithClass.map fun member => member.2.2) saved.methods := by
    refine List.forall₂_map_left_iff.mpr (Pairing.imp_of_mem savedFrom.methods ?_)
    exact fun member found entry _ belongs => ⟨member, found, rfl, belongs⟩
  exact Pairing.of_parts first compiled.members methods

/-- The body of each definition was compiled for it. -/
theorem body (compiled : saved.Compiled (scan source dialect) pairs)
    (savedFrom : saved.SavedFrom host dialect source world) {pair : Definition × Block}
    (listed : pair ∈ pairs) : Save.Compiled host pair.1 pair.2 := by
  cases sort : pair.1.kind.isMember with
  | false =>
    obtain ⟨entry, -, ⟨-, belongs⟩, body⟩ := Pairing.partner
      (compiled.procedures_entered savedFrom) (List.mem_filter.mpr ⟨listed, by rw [sort]; rfl⟩)
    rw [body]
    exact belongs.body
  | true =>
    obtain ⟨entry, -, ⟨member, -, same, belongs⟩, body⟩ := Pairing.partner
      (compiled.members_entered savedFrom) (List.mem_filter.mpr ⟨listed, sort⟩)
    rw [body, ← same]
    exact belongs.body

/-- The procedures of the scan are served by the first table, in order. -/
theorem procedures_served (compiled : saved.Compiled (scan source dialect) pairs)
    (savedFrom : saved.SavedFrom host dialect source world) (same : saved.Same container) :
    List.Forall₂ (fun pair entry => pair.1.Served pair.2 entry)
      (pairs.filter fun pair => !pair.1.kind.isMember) container.procedureBodies.entries := by
  refine List.forall₂_map_right_iff.mpr
    (Pairing.comp (compiled.procedures_entered savedFrom) same.procedures ?_)
  rintro ⟨definition, block⟩ entry loaded ⟨⟨found, belongs⟩, rfl⟩ same
  exact definition.served_procedure found belongs same

/-- The class members of the scan are served by the second table, in order. -/
theorem members_served (compiled : saved.Compiled (scan source dialect) pairs)
    (savedFrom : saved.SavedFrom host dialect source world) (same : saved.Same container) :
    List.Forall₂ (fun pair entry => pair.1.Served pair.2 entry)
      (pairs.filter fun pair => pair.1.kind.isMember) container.memberBodies.entries := by
  refine List.forall₂_map_right_iff.mpr
    (Pairing.comp (compiled.members_entered savedFrom) same.methods ?_)
  rintro ⟨definition, block⟩ entry loaded ⟨⟨member, found, rfl, belongs⟩, rfl⟩ same
  exact Definition.served_method found belongs same

end Container.Compiled

end CompiledScript
