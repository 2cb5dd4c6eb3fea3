import ChannelGuide.Json.Record
import ChannelGuide.Proofs.Json.Layout

/-!
Records, lists and words that are written come apart into what was put into them, and can be kept.
-/
namespace ChannelGuide.Json

namespace Value
variable {α : Type} {room : Nat}

/-! ## Taking apart -/

@[simp] theorem text?_text (s : String) : (text s).text? = some s := rfl

@[simp] theorem bool?_bool (b : Bool) : (Value.bool b).bool? = some b := rfl

@[simp] theorem word?_nat (n : UInt64) : (nat n.toNat).word? = some n := by
  have small : n.toNat < UInt64.size := n.toNat_lt
  simp [nat, word?, small]

theorem mapM_map_of_back {β γ : Type} {form : α → β} {form? : β → Option γ} {read : α → γ}
    (back : ∀ x, form? (form x) = some (read x)) (xs : List α) :
    (xs.map form).mapM form? = some (xs.map read) := by
  induction xs with
  | nil => rfl
  | cons x xs ih => simp [List.mapM_cons, back, ih]

theorem list?_list {form : α → Value} {form? : Value → Option α} {read : α → α}
    (back : ∀ x, form? (form x) = some (read x)) (xs : List α) :
    (list form xs).list? form? = some (xs.map read) :=
  mapM_map_of_back back xs

/-- A list is read as itself if each of its elements is. -/
theorem mapM_map_eq_self_iff {β : Type} {form : α → β} {form? : β → Option α} {xs : List α} :
    (xs.map form).mapM form? = some xs ↔ ∀ x ∈ xs, form? (form x) = some x := by
  induction xs with
  | nil => simp
  | cons x xs ih =>
      simp only [List.map_cons, List.mapM_cons, Option.bind_eq_bind, Option.bind_eq_some_iff,
        Option.pure_def, Option.some.injEq, List.cons.injEq, List.forall_mem_cons, ← ih]
      constructor
      · rintro ⟨_, first, _, others, rfl, rfl⟩
        exact ⟨first, others⟩
      · rintro ⟨first, others⟩
        exact ⟨x, first, xs, others, rfl, rfl⟩

theorem list?_list_eq_self_iff {form : α → Value} {form? : Value → Option α} {xs : List α} :
    (list form xs).list? form? = some xs ↔ ∀ x ∈ xs, form? (form x) = some x :=
  mapM_map_eq_self_iff

theorem exists_of_mem_mapM {β : Type} {form? : β → Option α} {vs : List β} {xs : List α} {x : α}
    (read : vs.mapM form? = some xs) (member : x ∈ xs) : ∃ v ∈ vs, form? v = some x := by
  induction vs generalizing xs with
  | nil =>
      obtain rfl : [] = xs := Option.some.inj read
      exact absurd member List.not_mem_nil
  | cons v vs ih =>
      simp only [List.mapM_cons, Option.bind_eq_bind, Option.bind_eq_some_iff] at read
      obtain ⟨y, first, ys, others, whole⟩ := read
      obtain rfl : y :: ys = xs := Option.some.inj whole
      rcases List.mem_cons.mp member with rfl | later
      · exact ⟨v, List.mem_cons_self, first⟩
      · obtain ⟨w, inside, of_w⟩ := ih others later
        exact ⟨w, List.mem_cons_of_mem v inside, of_w⟩

theorem exists_of_mem_list? {form? : Value → Option α} {v : Value} {xs : List α} {x : α}
    (read : v.list? form? = some xs) (member : x ∈ xs) : ∃ w, form? w = some x := by
  obtain ⟨vs, -, read⟩ := Option.bind_eq_some_iff.mp read
  obtain ⟨w, -, of_w⟩ := exists_of_mem_mapM read member
  exact ⟨w, of_w⟩

theorem list?_list_of_back {form : α → Value} {form? : Value → Option α}
    (back : ∀ x, form? (form x) = some x) (xs : List α) : (list form xs).list? form? = some xs :=
  list?_list_eq_self_iff.mpr fun x _ => back x

theorem optional?_optional_text (s : Option String) :
    (optional text s).optional? text? = some s := by
  cases s <;> rfl

/-- The names are those of the fields, all different. -/
theorem fields?_record {fields : Fields} {names : List String} (keys : fields.map Prod.fst = names)
    (distinct : names.Nodup) : (record fields).fields? names = some fields := by
  have known : fields.filter (fun field => names.contains field.1) = fields := by
    refine List.filter_eq_self.mpr fun field member => ?_
    rw [List.contains_iff_mem, ← keys]
    exact List.mem_map_of_mem member
  rw [record, fields?, readableMembers?, mapM_map_eq_self_iff.mpr, Option.bind_some]
  · simp only [known]
    rw [keys, if_pos distinct]
  · exact fun _ _ => rfl

@[simp] theorem alternative?_record (key : String) (v : Value) :
    (record [(key, v)]).alternative? = some (key, v) := rfl

/-! ## Room -/

@[simp] theorem isStorable_text (s : String) : (text s).isStorable room = true := rfl

@[simp] theorem isStorable_bool (b : Bool) : (Value.bool b).isStorable room = true := rfl

@[simp] theorem isStorable_word (n : UInt64) : (nat n.toNat).isStorable room = true :=
  finiteDouble_of_lt n.toNat_lt

@[simp] theorem isStorable_optional_text (s : Option String) :
    (optional text s).isStorable room = true := by
  cases s <;> rfl

@[simp] theorem isStorable_list {form : α → Value} {xs : List α} :
    (list form xs).isStorable (room + 1) = true ↔ ∀ x ∈ xs, (form x).isStorable room = true := by
  simp [list, isStorable_array_iff]

@[simp] theorem isStorable_record {fields : Fields} :
    (record fields).isStorable (room + 1) = true ↔
      ∀ field ∈ fields, field.2.isStorable room = true := by
  simp only [record, isStorable_object_iff, List.forall_mem_map]
  simp

end Value

namespace Fields
variable {α : Type} {fields : Fields} {name other : String} {v : Value} {default : α}
  {form? : Value → Option α}

@[simp] theorem required?_cons_self : required? ((name, v) :: fields) name form? = form? v := by
  simp [required?]

@[simp] theorem required?_cons_of_ne (differs : name ≠ other) :
    required? ((other, v) :: fields) name form? = required? fields name form? := by
  simp [required?, List.lookup_cons, beq_false_of_ne differs]

@[simp] theorem defaulted?_cons_self :
    defaulted? ((name, v) :: fields) name default form? = form? v := by
  simp [defaulted?]

@[simp] theorem defaulted?_cons_of_ne (differs : name ≠ other) :
    defaulted? ((other, v) :: fields) name default form? = defaulted? fields name default form? := by
  simp [defaulted?, List.lookup_cons, beq_false_of_ne differs]

theorem exists_of_required? {x : α} (read : fields.required? name form? = some x) :
    ∃ v, form? v = some x := by
  obtain ⟨v, -, of_v⟩ := Option.bind_eq_some_iff.mp read
  exact ⟨v, of_v⟩

theorem eq_or_exists_of_defaulted? {x : α}
    (read : fields.defaulted? name default form? = some x) :
    x = default ∨ ∃ v, form? v = some x := by
  rw [defaulted?] at read
  split at read
  · exact .inl (Option.some.inj read).symm
  · exact .inr ⟨_, read⟩

end Fields
end ChannelGuide.Json
