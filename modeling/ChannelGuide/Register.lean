/-!
Registers: collections in which every key occurs once, kept in ascending order of their keys. What a
register holds can be read off its list of entries.
-/
namespace ChannelGuide

/-- Puts `x` in its place in an ascending list; an element with the same key gives way. -/
def placeByKey (key : α → UInt64) (x : α) : List α → List α
  | [] => [x]
  | y :: ys =>
    if key x < key y then x :: y :: ys
    else if key x = key y then x :: ys
    else y :: placeByKey key x ys

theorem eq_or_mem_of_mem_placeByKey {key : α → UInt64} {x z : α} {xs : List α}
    (h : z ∈ placeByKey key x xs) : z = x ∨ z ∈ xs := by
  induction xs with
  | nil => simpa [placeByKey] using h
  | cons y ys ih =>
    simp only [placeByKey] at h
    split at h
    · simpa using h
    · split at h
      · rcases List.mem_cons.mp h with h | h
        · exact .inl h
        · exact .inr (List.mem_cons_of_mem _ h)
      · rcases List.mem_cons.mp h with h | h
        · exact .inr (h ▸ List.mem_cons_self)
        · exact (ih h).imp_right (List.mem_cons_of_mem _)

theorem pairwise_placeByKey {key : α → UInt64} (x : α) {xs : List α}
    (h : xs.Pairwise fun a b => key a < key b) :
    (placeByKey key x xs).Pairwise fun a b => key a < key b := by
  induction xs with
  | nil => simp [placeByKey]
  | cons y ys ih =>
    have hy := List.pairwise_cons.mp h
    simp only [placeByKey]
    split
    · next hlt =>
      refine List.pairwise_cons.mpr ⟨fun z hz => ?_, h⟩
      rcases List.mem_cons.mp hz with hz | hz
      · exact hz ▸ hlt
      · exact UInt64.lt_trans hlt (hy.1 z hz)
    · next hnlt =>
      split
      · next heq =>
        exact List.pairwise_cons.mpr ⟨fun z hz => heq ▸ hy.1 z hz, hy.2⟩
      · next hne =>
        refine List.pairwise_cons.mpr ⟨fun z hz => ?_, ih hy.2⟩
        rcases eq_or_mem_of_mem_placeByKey hz with hz | hz
        · subst hz
          exact UInt64.lt_of_le_of_ne (UInt64.not_lt.mp hnlt) (Ne.symm hne)
        · exact hy.1 z hz

structure Register (key : α → UInt64) where
  entries : List α
  ascending : entries.Pairwise fun a b => key a < key b

namespace Register

variable {key : α → UInt64}

def empty : Register key := ⟨[], .nil⟩

def insert (r : Register key) (x : α) : Register key :=
  ⟨placeByKey key x r.entries, pairwise_placeByKey x r.ascending⟩

def insertAll (r : Register key) (xs : List α) : Register key := xs.foldl insert r

def ofList (xs : List α) : Register key := empty.insertAll xs

def get? (r : Register key) (k : UInt64) : Option α := r.entries.find? fun x => key x = k

theorem eq_of_key_eq (r : Register key) {x y : α} (hx : x ∈ r.entries) (hy : y ∈ r.entries)
    (h : key x = key y) : x = y := by
  obtain ⟨xs, ascending⟩ := r
  simp only at hx hy
  induction xs with
  | nil => cases hx
  | cons z zs ih =>
    obtain ⟨least, rest⟩ := List.pairwise_cons.mp ascending
    rcases List.mem_cons.mp hx with hxz | hxzs <;> rcases List.mem_cons.mp hy with hyz | hyzs
    · exact hxz.trans hyz.symm
    · exact absurd (h ▸ hxz ▸ least y hyzs) (UInt64.lt_irrefl _)
    · exact absurd (h ▸ hyz ▸ least x hxzs) (UInt64.lt_irrefl _)
    · exact ih rest hxzs hyzs

theorem get?_eq_some_iff (r : Register key) (k : UInt64) (x : α) :
    r.get? k = some x ↔ x ∈ r.entries ∧ key x = k := by
  constructor
  · intro h
    exact ⟨List.mem_of_find?_eq_some h, by simpa using List.find?_some h⟩
  · rintro ⟨hx, rfl⟩
    obtain ⟨y, hy⟩ : ∃ y, r.get? (key x) = some y :=
      Option.isSome_iff_exists.mp (List.find?_isSome.mpr ⟨x, hx, by simp⟩)
    have hmem := List.mem_of_find?_eq_some hy
    have hkey : key y = key x := by simpa using List.find?_some hy
    rw [hy, r.eq_of_key_eq hmem hx hkey]

end Register
end ChannelGuide
