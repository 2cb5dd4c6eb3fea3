import ChannelGuide.Equivalence.Precedence

/-!
Whom the order of preference chooses. An item of a publisher that may not be read ranks behind all
that may, so it makes no difference to the choice wherever there is a readable item to choose.
-/
namespace ChannelGuide

variable {context : Option ItemId} {sources : SourcePrecedence}

/-- The item's publisher may be read. -/
def Item.Readable (sources : SourcePrecedence) (item : Item) : Prop :=
  sources.ReadEnabled item.publisher

instance (sources : SourcePrecedence) (item : Item) : Decidable (item.Readable sources) :=
  inferInstanceAs (Decidable (sources.ReadEnabled _))

theorem Item.rank_of_readable {item : Item} (readable : item.Readable sources) :
    item.rank sources < sources.enabledSources.length := by
  obtain ⟨place, found⟩ := Option.isSome_iff_exists.mp (List.isSome_idxOf?.mpr readable)
  obtain ⟨inside, -⟩ := List.idxOf?_eq_some_iff.mp found
  rw [rank, SourcePrecedence.rank?, found]
  exact inside

theorem Item.rank_of_not_readable {item : Item} (unreadable : ¬ item.Readable sources) :
    item.rank sources = sources.enabledSources.length := by
  rw [rank, SourcePrecedence.rank?, List.idxOf?_eq_none_iff.mpr unreadable]
  rfl

theorem Item.rank_eq_iff {a b : Item} (ha : a.Readable sources) (hb : b.Readable sources) :
    a.rank sources = b.rank sources ↔ a.publisher = b.publisher := by
  obtain ⟨place, found⟩ := Option.isSome_iff_exists.mp (List.isSome_idxOf?.mpr ha)
  obtain ⟨place', found'⟩ := Option.isSome_iff_exists.mp (List.isSome_idxOf?.mpr hb)
  have of_a : a.rank sources = place := by rw [rank, SourcePrecedence.rank?, found]; rfl
  have of_b : b.rank sources = place' := by rw [rank, SourcePrecedence.rank?, found']; rfl
  constructor
  · intro same
    rw [of_a, of_b] at same
    subst same
    obtain ⟨_, there, -⟩ := List.idxOf?_eq_some_iff.mp found
    obtain ⟨_, there', -⟩ := List.idxOf?_eq_some_iff.mp found'
    exact there.symm.trans there'
  · intro same
    rw [rank, rank, same]

theorem Item.preferred_of_readable {a b : Item} (ha : a.Readable sources)
    (hb : ¬ b.Readable sources) : a.Preferred context sources b := by
  have behind := rank_of_not_readable hb
  exact .inl (behind ▸ rank_of_readable ha)

theorem Item.not_preferred_of_not_readable {a b : Item} (ha : ¬ a.Readable sources)
    (hb : b.Readable sources) : ¬ a.Preferred context sources b := by
  have behind := rank_of_not_readable ha
  have before := rank_of_readable hb
  rintro (less | ⟨same, -⟩) <;> omega

theorem mem_of_mostPreferred? {items : List Item} {best : Item}
    (chosen : mostPreferred? context sources items = some best) : best ∈ items := by
  induction items generalizing best with
  | nil => cases chosen
  | cons item items ih =>
      rw [mostPreferred?] at chosen
      split at chosen
      · cases chosen
        exact List.mem_cons_self
      · next other found =>
          split at chosen
          · cases chosen
            exact List.mem_cons_of_mem item (ih found)
          · cases chosen
            exact List.mem_cons_self

theorem mostPreferred?_eq_none {items : List Item} :
    mostPreferred? context sources items = none ↔ items = [] := by
  cases items with
  | nil => simp [mostPreferred?]
  | cons item items =>
      simp only [mostPreferred?, List.cons_ne_nil, iff_false]
      split
      · exact Option.some_ne_none item
      · split
        · exact Option.some_ne_none _
        · exact Option.some_ne_none item

theorem exists_mostPreferred? {items : List Item} (available : items ≠ []) :
    ∃ best, mostPreferred? context sources items = some best :=
  Option.ne_none_iff_exists'.mp (mt mostPreferred?_eq_none.mp available)

theorem Item.preferred_iff {a b : Item} :
    a.Preferred context sources b ↔ a.rank sources < b.rank sources ∨
      a.rank sources = b.rank sources ∧ (a.distance context < b.distance context ∨
        a.distance context = b.distance context ∧ a.id.value.toNat < b.id.value.toNat) := by
  rw [Preferred, UInt64.lt_iff_toNat_lt]

theorem Item.not_preferred_trans {a b d : Item} (hab : ¬ a.Preferred context sources b)
    (hbd : ¬ b.Preferred context sources d) : ¬ a.Preferred context sources d := by
  rw [preferred_iff] at *
  omega

theorem Item.Preferred.asymm {a b : Item} (hab : a.Preferred context sources b) :
    ¬ b.Preferred context sources a := by
  rw [preferred_iff] at *
  omega

/-- One of the items, to which none of them is preferred. -/
structure Item.Choice (context : Option ItemId) (sources : SourcePrecedence) (items : List Item)
    (best : Item) : Prop where
  member : best ∈ items
  unbeaten : ∀ item ∈ items, ¬ item.Preferred context sources best

theorem Item.Choice.congr {items items' : List Item} {best : Item}
    (choice : Item.Choice context sources items best)
    (same : ∀ item, item ∈ items ↔ item ∈ items') : Item.Choice context sources items' best where
  member := (same best).mp choice.member
  unbeaten item among := choice.unbeaten item ((same item).mpr among)

theorem choice_of_mostPreferred? {items : List Item} {best : Item}
    (chosen : mostPreferred? context sources items = some best) :
    Item.Choice context sources items best := by
  refine ⟨mem_of_mostPreferred? chosen, ?_⟩
  induction items generalizing best with
  | nil => cases chosen
  | cons item items ih =>
      have itself : ¬ item.Preferred context sources item := fun before => before.asymm before
      rw [mostPreferred?] at chosen
      split at chosen
      · next none =>
          cases chosen
          rw [mostPreferred?_eq_none.mp none]
          exact List.forall_mem_singleton.mpr itself
      · next other found =>
          have rest := ih found
          split at chosen
          · next before =>
              cases chosen
              exact List.forall_mem_cons.mpr ⟨before.asymm, rest⟩
          · next behind =>
              cases chosen
              exact List.forall_mem_cons.mpr
                ⟨itself, fun z later => Item.not_preferred_trans (rest z later) behind⟩

/-- Where some item may be read, the choice is that among the readable ones. -/
theorem mostPreferred?_filter_readable {items : List Item}
    (available : items.filter (·.Readable sources) ≠ []) :
    mostPreferred? context sources items =
      mostPreferred? context sources (items.filter (·.Readable sources)) := by
  induction items with
  | nil => exact absurd rfl available
  | cons item items ih =>
      by_cases readable : item.Readable sources
      · have kept : (item :: items).filter (·.Readable sources) =
            item :: items.filter (·.Readable sources) :=
          List.filter_cons_of_pos (by simpa using readable)
        rw [kept, mostPreferred?, mostPreferred?]
        by_cases others : items.filter (·.Readable sources) = []
        · -- whatever is chosen of the others may not be read, so it does not come before the item
          rw [others]
          cases chosen : mostPreferred? context sources items with
          | none => rfl
          | some best =>
              have unreadable : ¬ best.Readable sources := by
                simpa using List.filter_eq_nil_iff.mp others best (mem_of_mostPreferred? chosen)
              exact if_neg (Item.not_preferred_of_not_readable unreadable readable)
        · rw [ih others]
      · have dropped : (item :: items).filter (·.Readable sources) =
            items.filter (·.Readable sources) :=
          List.filter_cons_of_neg (by simpa using readable)
        rw [dropped] at available ⊢
        -- the choice among the others is readable, and so it comes before the item
        have some_chosen :
            mostPreferred? context sources (items.filter (·.Readable sources)) ≠ none :=
          mt mostPreferred?_eq_none.mp available
        obtain ⟨best, chosen⟩ := Option.ne_none_iff_exists'.mp some_chosen
        have best_readable : best.Readable sources := by
          have member := mem_of_mostPreferred? chosen
          exact of_decide_eq_true (List.mem_filter.mp member).2
        rw [mostPreferred?, ih available, chosen]
        exact if_pos (Item.preferred_of_readable best_readable readable)

theorem precedenceMerger_subset (items : List Item) :
    precedenceMerger context items sources ⊆ items := by
  intro item member
  unfold precedenceMerger at member
  split at member
  · exact mem_of_mostPreferred? (Option.mem_toList.mp member)
  · exact List.mem_of_head? (Option.mem_toList.mp member)

theorem exists_precedenceMerger_eq {items : List Item} (available : items ≠ []) :
    ∃ best, precedenceMerger context items sources = [best] := by
  unfold precedenceMerger
  split
  · obtain ⟨best, chosen⟩ : ∃ best, mostPreferred? context sources items = some best :=
      exists_mostPreferred? available
    exact ⟨best, congrArg Option.toList chosen⟩
  · obtain ⟨first, rest, rfl⟩ := List.exists_cons_of_ne_nil available
    exact ⟨first, rfl⟩

/-! Equivalents of an item that is asked about, and the same equivalents without it being known
which of them that is. -/
section Displacement
variable {items : List Item} {item x y : Item}

/-- None of the items is of a publisher that comes before that of `item`; but one of this publisher
has a lower number. -/
def Item.Displaced (sources : SourcePrecedence) (items : List Item) (item : Item) : Prop :=
  (∃ other ∈ items, other.publisher = item.publisher ∧ other.id.value < item.id.value) ∧
    ∀ other ∈ items, item.rank sources ≤ other.rank sources

instance (sources : SourcePrecedence) (items : List Item) (item : Item) :
    Decidable (item.Displaced sources items) :=
  inferInstanceAs (Decidable ((∃ other ∈ items, _ ∧ _) ∧ ∀ other ∈ items, _))

/-- If it is not known which item is asked about, only numbers decide within one publisher. -/
theorem Item.preferred_none_iff : x.Preferred none sources y ↔ x.rank sources < y.rank sources ∨
    x.rank sources = y.rank sources ∧ x.id.value.toNat < y.id.value.toNat := by
  simp [preferred_iff, distance]

theorem Item.distance_eq_zero : x.distance (some item.id) = 0 ↔ x.id = item.id := by
  simp [distance]

theorem Item.distance_le_one (context : Option ItemId) (item : Item) :
    item.distance context ≤ 1 := by
  unfold distance
  split <;> omega

/-- Both are of one publisher, and then the lowest number is no greater than any other. -/
theorem Item.Choice.rank_eq (hx : Item.Choice none sources items x)
    (hy : Item.Choice (some item.id) sources items y) :
    x.rank sources = y.rank sources ∧ x.id.value.toNat ≤ y.id.value.toNat := by
  have over_y := hx.unbeaten y hy.member
  have over_x := hy.unbeaten x hx.member
  rw [preferred_none_iff] at over_y
  rw [preferred_iff] at over_x
  omega

/-- The choice differs exactly if the item that is asked about is displaced. -/
theorem Item.Choice.id_eq_iff (hx : Item.Choice none sources items x)
    (hy : Item.Choice (some item.id) sources items y) (member : item ∈ items)
    (readable : ∀ other ∈ items, other.Readable sources)
    (apart : ∀ other ∈ items, other.id = item.id → other = item) :
    x.id = y.id ↔ ¬ item.Displaced sources items := by
  obtain ⟨same_rank, lowest⟩ := hx.rank_eq hy
  constructor
  · rintro same ⟨⟨other, among, publisher, lower⟩, foremost⟩
    -- the item itself is chosen if it is asked about, and the other one goes before it if not
    have other_rank : other.rank sources = item.rank sources :=
      (rank_eq_iff (readable other among) (readable item member)).mpr publisher
    have of_item := hy.unbeaten item member
    have of_other := hx.unbeaten other among
    have zero : item.distance (some item.id) = 0 := distance_eq_zero.mpr rfl
    have before_y := foremost y hy.member
    rw [preferred_iff] at of_item
    rw [preferred_none_iff] at of_other
    have itself : y.id = item.id := distance_eq_zero.mp (by omega)
    rw [UInt64.lt_iff_toNat_lt] at lower
    rw [same, itself] at of_other
    omega
  · intro undisplaced
    refine Decidable.byContradiction fun differ => ?_
    have differ_value : x.id.value.toNat ≠ y.id.value.toNat :=
      fun same => differ (congrArg ItemId.mk (UInt64.toNat_inj.mp same))
    have over_x := hy.unbeaten x hx.member
    rw [preferred_iff] at over_x
    have at_most := distance_le_one (some item.id) x
    have itself : y = item := apart y hy.member (distance_eq_zero.mp (by omega))
    subst itself
    refine undisplaced ⟨⟨x, hx.member, ?_, ?_⟩, fun other among => ?_⟩
    · exact (rank_eq_iff (readable x hx.member) (readable y member)).mp same_rank
    · rw [UInt64.lt_iff_toNat_lt]
      omega
    · have of_other := hx.unbeaten other among
      rw [preferred_none_iff] at of_other
      omega

end Displacement
end ChannelGuide
