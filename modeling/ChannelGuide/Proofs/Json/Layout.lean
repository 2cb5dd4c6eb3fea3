import ChannelGuide.Json.Storage
import ChannelGuide.Proofs.Json.Written

/-!
Both layouts of a value are texts of it. A value that can be kept is read back from what is written
of it, whichever way it is laid out.
-/
namespace ChannelGuide.Json

theorem blank_newLine (depth : Nat) : Blank (newLine depth) := by
  intro c member
  rcases List.mem_cons.mp member with rfl | space
  · rfl
  · rw [List.eq_of_mem_replicate space]
    rfl

theorem blank_space : Blank [' '] := by simp [Blank, isBlank]

/-! ## Kept values -/

section Room
variable {room : Nat} {vs : List Value} {members : List (Text × Value)}

/-- A container that is kept takes one place of the room, and its parts have the others. -/
theorem isStorable_array_iff :
    (Value.array vs).isStorable room = true ↔
      ∃ inner, room = inner + 1 ∧ ∀ v ∈ vs, v.isStorable inner = true := by
  have parts (inner : Nat) :
      elementsStorable inner vs = true ↔ ∀ v ∈ vs, v.isStorable inner = true := by
    induction vs with
    | nil => simp [elementsStorable]
    | cons v vs ih => simp [elementsStorable, ih]
  cases room <;> simp [Value.isStorable, parts]

theorem isStorable_object_iff :
    (Value.object members).isStorable room = true ↔
      ∃ inner, room = inner + 1 ∧
        ∀ m ∈ members, m.1.isSome = true ∧ m.2.isStorable inner = true := by
  have parts (inner : Nat) : membersStorable inner members = true ↔
      ∀ m ∈ members, m.1.isSome = true ∧ m.2.isStorable inner = true := by
    induction members with
    | nil => simp [membersStorable]
    | cons m members ih => simp [membersStorable, ih]
  cases room <;> simp [Value.isStorable, parts]

theorem exists_fields (named : ∀ m ∈ members, m.1.isSome = true) :
    ∃ fields : List (String × Value), members = fields.map fun (key, v) => (some key, v) := by
  induction members with
  | nil => exact ⟨[], rfl⟩
  | cons m members ih =>
      obtain ⟨first, others⟩ := List.forall_mem_cons.mp named
      obtain ⟨key, text⟩ := Option.isSome_iff_exists.mp first
      obtain ⟨fields, rfl⟩ := ih others
      exact ⟨(key, m.2) :: fields, congrArg (· :: _) (Prod.ext text rfl)⟩

/-- A property that passes from parts to values holds of every value that can be kept. -/
theorem Value.kept_induction {motive : Value → Prop} (null : motive .null)
    (bool : ∀ b, motive (.bool b)) (number : ∀ n, motive (.number n))
    (text : ∀ s, motive (.text s))
    (array : ∀ vs, (∀ v ∈ vs, motive v) → motive (.array vs))
    (record : ∀ fields, (∀ field ∈ fields, motive field.2) → motive (.record fields)) {v : Value}
    (kept : v.isStorable room = true) : motive v := by
  -- the parts of a container have less room than the container
  induction room using Nat.strongRecOn generalizing v with
  | ind room ih =>
      cases v with
      | null => exact null
      | bool b => exact bool b
      | number n => exact number n
      | string s =>
          obtain ⟨s, rfl⟩ := Option.isSome_iff_exists.mp kept
          exact text s
      | array vs =>
          obtain ⟨inner, rfl, parts⟩ := isStorable_array_iff.mp kept
          exact array vs fun v member => ih inner inner.lt_succ_self (parts v member)
      | object members =>
          obtain ⟨inner, rfl, parts⟩ := isStorable_object_iff.mp kept
          obtain ⟨fields, rfl⟩ := exists_fields fun m member => (parts m member).1
          refine record fields fun field member => ?_
          have part := parts _ (List.mem_map_of_mem member)
          exact ih inner inner.lt_succ_self part.2

end Room

/-! ## Layouts -/

section Layouts
variable {v : Value} {vs : List Value} {fields : List (String × Value)} {room depth : Nat}

theorem elementsWritten_compact (inhabited : vs ≠ [])
    (elements : ∀ v ∈ vs, Written v.compactChars v) :
    ElementsWritten (compactElements vs) vs := by
  induction vs with
  | nil => exact absurd rfl inhabited
  | cons v vs ih =>
      obtain ⟨first, others⟩ := List.forall_mem_cons.mp elements
      cases vs with
      | nil => exact .one blank_nil first
      | cons w vs => exact .cons blank_nil first (ih (List.cons_ne_nil w vs) others)

theorem membersWritten_compact (inhabited : fields ≠ [])
    (values : ∀ field ∈ fields, Written field.2.compactChars field.2) :
    MembersWritten (compactMembers (fields.map fun (key, v) => (some key, v)))
      (fields.map fun (key, v) => (some key, v)) := by
  induction fields with
  | nil => exact absurd rfl inhabited
  | cons field fields ih =>
      obtain ⟨first, others⟩ := List.forall_mem_cons.mp values
      cases fields with
      | nil => exact .one blank_nil blank_nil field.1 first
      | cons next fields =>
          exact .cons blank_nil blank_nil field.1 first (ih (List.cons_ne_nil next fields) others)

theorem Value.written_compactChars (kept : v.isStorable room = true) :
    Written v.compactChars v := by
  refine Value.kept_induction (motive := fun v => Written v.compactChars v) written_null written_bool
    written_number written_text ?_ ?_ kept
  · intro vs elements
    cases vs with
    | nil => exact written_emptyArray
    | cons v vs =>
        have inside := elementsWritten_compact (List.cons_ne_nil v vs) elements
        simpa [Value.compactChars] using inside.array blank_nil
  · intro fields values
    cases fields with
    | nil => exact written_emptyObject
    | cons field fields =>
        have inside := membersWritten_compact (List.cons_ne_nil field fields) values
        simpa [Value.compactChars, Value.record] using inside.object blank_nil

theorem elementsWritten_pretty (inhabited : vs ≠ [])
    (elements : ∀ v ∈ vs, Written (v.prettyChars depth) v) :
    ElementsWritten (prettyElements depth vs) vs := by
  have gap := blank_newLine depth
  induction vs with
  | nil => exact absurd rfl inhabited
  | cons v vs ih =>
      obtain ⟨first, others⟩ := List.forall_mem_cons.mp elements
      cases vs with
      | nil => exact .one gap first
      | cons w vs => exact .cons gap first (ih (List.cons_ne_nil w vs) others)

theorem membersWritten_pretty (inhabited : fields ≠ [])
    (values : ∀ field ∈ fields, Written (field.2.prettyChars depth) field.2) :
    MembersWritten (prettyMembers depth (fields.map fun (key, v) => (some key, v)))
      (fields.map fun (key, v) => (some key, v)) := by
  have gap := blank_newLine depth
  induction fields with
  | nil => exact absurd rfl inhabited
  | cons field fields ih =>
      obtain ⟨first, others⟩ := List.forall_mem_cons.mp values
      cases fields with
      | nil => exact .one gap blank_space field.1 first
      | cons next fields =>
          exact .cons gap blank_space field.1 first (ih (List.cons_ne_nil next fields) others)

theorem Value.written_prettyChars (kept : v.isStorable room = true) (depth : Nat) :
    Written (v.prettyChars depth) v := by
  refine Value.kept_induction (motive := fun v => ∀ depth, Written (v.prettyChars depth) v)
    (fun _ => written_null) (fun b _ => written_bool b) (fun n _ => written_number n)
    (fun s _ => written_text s) ?_ ?_ kept depth
  · intro vs elements depth
    cases vs with
    | nil => exact written_emptyArray
    | cons v vs =>
        have inside : ElementsWritten (prettyElements (depth + 1) (v :: vs)) (v :: vs) :=
          elementsWritten_pretty (List.cons_ne_nil v vs) fun v member =>
            elements v member (depth + 1)
        exact inside.array (blank_newLine depth)
  · intro fields values depth
    cases fields with
    | nil => exact written_emptyObject
    | cons field fields =>
        have inside := membersWritten_pretty (List.cons_ne_nil field fields) fun field member =>
          values field member (depth + 1)
        exact inside.object (blank_newLine depth)

theorem Value.ofText?_compact (kept : v.isStorable room = true) :
    Value.ofText? v.compact = some v := by
  rw [Value.ofText?, Value.compact, String.toList_ofList]
  exact (written_compactChars kept).ofChars?

theorem Value.ofText?_pretty (kept : v.isStorable room = true) :
    Value.ofText? v.pretty = some v := by
  rw [Value.ofText?, Value.pretty, String.toList_ofList]
  exact (written_prettyChars kept 0).ofChars?

end Layouts
end ChannelGuide.Json
