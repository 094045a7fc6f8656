import Isnad.Json.Decode
import Mathlib.Data.List.Forall2

/-!
# Steps of reading a record

A record is read field by field, and each step of the reading that succeeds says what its field
holds. The fields of an object are found by their names, whatever else the object has
(`Layout.lookup_of_read`).
-/

namespace Isnad.Json

variable {α β ε ν : Type}

/-- Two steps succeed if each of them does. -/
theorem bind_eq_ok_iff {x : Except ε α} {f : α → Except ε β} {b : β} :
    x >>= f = .ok b ↔ ∃ a, x = .ok a ∧ f a = .ok b := by
  cases x with
  | error e => simp [bind, Except.bind]
  | ok a => simp [bind, Except.bind]

theorem bind_eq_error_iff {x : Except ε α} {f : α → Except ε β} {e : ε} :
    x >>= f = .error e ↔ x = .error e ∨ ∃ a, x = .ok a ∧ f a = .error e := by
  cases x with
  | error e' => simp [bind, Except.bind]
  | ok a => simp [bind, Except.bind]

theorem exists_bind_eq_ok_iff {x : Except ε α} {f : α → Except ε β} :
    (∃ b, x >>= f = .ok b) ↔ ∃ a, x = .ok a ∧ ∃ b, f a = .ok b := by
  simp only [bind_eq_ok_iff]
  exact ⟨fun ⟨b, a, hx, hb⟩ => ⟨a, hx, b, hb⟩, fun ⟨a, hx, b, hb⟩ => ⟨b, a, hx, hb⟩⟩

theorem map_eq_ok_iff {x : Except ε α} {f : α → β} {b : β} :
    f <$> x = .ok b ↔ ∃ a, x = .ok a ∧ f a = b := by
  cases x with
  | error e => simp [Functor.map, Except.map]
  | ok a => simp [Functor.map, Except.map]

/-- A test of what a step gives shows that it gives something. -/
theorem exists_of_any_toOption {x : Except ε α} {p : α → Bool} (h : x.toOption.any p = true) :
    ∃ a, x = .ok a ∧ p a = true := by
  cases x with
  | error e => cases h
  | ok a => exact ⟨a, rfl, h⟩

theorem found_eq_ok_iff {o : Option α} {a : α} : found o = .ok a ↔ o = some a := by
  cases o <;> simp [found]

/-- A list is read item by item. -/
theorem mapM_eq_ok_iff {f : α → Except ε β} {xs : List α} {ys : List β} :
    xs.mapM f = .ok ys ↔ List.Forall₂ (fun x y => f x = .ok y) xs ys := by
  induction xs generalizing ys with
  | nil =>
    rw [List.mapM_nil, List.forall₂_nil_left_iff]
    exact ⟨fun h => (Except.ok.inj h).symm, fun h => h ▸ rfl⟩
  | cons x xs ih =>
    simp only [List.mapM_cons, bind_eq_ok_iff, List.forall₂_cons_left_iff, ih]
    constructor
    · rintro ⟨y, hy, zs, hzs, h⟩
      exact ⟨y, zs, hy, hzs, (Except.ok.inj h).symm⟩
    · rintro ⟨y, zs, hy, hzs, rfl⟩
      exact ⟨y, hy, zs, hzs, rfl⟩

theorem mapM_congr {f g : α → Except ε β} {xs : List α} (h : ∀ x ∈ xs, f x = g x) :
    xs.mapM f = xs.mapM g := by
  induction xs with
  | nil => rfl
  | cons x xs ih =>
    obtain ⟨hx, hxs⟩ := List.forall_mem_cons.mp h
    rw [List.mapM_cons, List.mapM_cons, hx, ih hxs]

theorem forall₂_exists_of_mem {R : α → β → Prop} {as : List α} {bs : List β}
    (h : List.Forall₂ R as bs) {b : β} (hb : b ∈ bs) : ∃ a ∈ as, R a b := by
  induction h with
  | nil => cases hb
  | cons hr _ ih =>
    rcases List.mem_cons.mp hb with rfl | hb
    · exact ⟨_, List.mem_cons_self, hr⟩
    · obtain ⟨a, ha, hab⟩ := ih hb
      exact ⟨a, List.mem_cons_of_mem _ ha, hab⟩

theorem exists_forall₂_iff {R : α → β → Prop} {as : List α} :
    (∃ bs, List.Forall₂ R as bs) ↔ ∀ a ∈ as, ∃ b, R a b := by
  induction as with
  | nil => exact iff_of_true ⟨[], .nil⟩ fun _ h => absurd h List.not_mem_nil
  | cons a as ih =>
    rw [List.forall_mem_cons, ← ih]
    constructor
    · rintro ⟨_, hab | ⟨hb, hbs⟩⟩
      exact ⟨⟨_, hb⟩, _, hbs⟩
    · rintro ⟨⟨b, hb⟩, bs, hbs⟩
      exact ⟨b :: bs, .cons hb hbs⟩

/-! ## Fields -/

theorem lookup_map {γ : Type} (g : β → γ) (members : List (String × β)) (name : String) :
    (members.map (Prod.map id g)).lookup name = (members.lookup name).map g := by
  induction members with
  | nil => rfl
  | cons m ms ih =>
    obtain ⟨k, x⟩ := m
    rw [List.map_cons, Prod.map, List.lookup_cons, List.lookup_cons, id]
    cases name == k with
    | true => rfl
    | false => exact ih

theorem lookup_filter {members : List (String × β)} {names : List String} {name : String}
    (h : name ∈ names) :
    (members.filter fun m => names.contains m.1).lookup name = members.lookup name := by
  induction members with
  | nil => rfl
  | cons m ms ih =>
    obtain ⟨k, x⟩ := m
    by_cases hk : name = k
    · subst hk
      simp [h]
    · rw [List.filter_cons, List.lookup_cons, beq_false_of_ne hk]
      split
      · rw [List.lookup_cons, beq_false_of_ne hk]
        exact ih
      · exact ih

/-- A field of an object is the member of that name. -/
theorem Layout.lookup_of_read {l : Layout} {members : List (String × Source ν)} {f : Fields ν}
    (h : l.read (.obj members) = .ok f) {name : String} (hn : name ∈ l.names) :
    f.entries.lookup name = members.lookup name := by
  simp only [read, ofMembers] at h
  split at h
  · cases h
  · cases h
    exact lookup_filter hn

namespace Fields

variable {f : Fields Number} {name : String} {d : Decoder α}

theorem required_eq_ok_iff {a : α} :
    f.required name d = .ok a ↔ ∃ w, f.entries.lookup name = some w ∧ d w = .ok a := by
  unfold required
  cases f.entries.lookup name <;> simp

/-- A field that is absent or null is none, and another is some. -/
theorem option_eq_ok_iff {o : Option α} :
    f.option name d = .ok o ↔
      match f.entries.lookup name with
      | none | some .null => o = none
      | some w => ∃ a, o = some a ∧ d w = .ok a := by
  unfold option orElse
  cases f.entries.lookup name with
  | none => exact ⟨fun h => (Except.ok.inj h).symm, fun h => congrArg Except.ok h.symm⟩
  | some w =>
    have hsome : (some <$> d w) = .ok o ↔ ∃ a, o = some a ∧ d w = .ok a := by
      rw [map_eq_ok_iff]
      exact exists_congr fun a => ⟨fun h => ⟨h.2.symm, h.1⟩, fun h => ⟨h.2, h.1.symm⟩⟩
    cases w with
    | null => exact ⟨fun h => (Except.ok.inj h).symm, fun h => congrArg Except.ok h.symm⟩
    | _ => exact hsome

end Fields

/-! ## Records in values -/

theorem toWrittenMembers_eq_map (members : List (String × Json)) :
    toWrittenMembers members = members.map (Prod.map id toWritten) := by
  induction members with
  | nil => rfl
  | cons m ms ih => rw [toWrittenMembers, ih, List.map_cons, Prod.map, id]

theorem toWrittenItems_eq_map {items : List Json} :
    toWrittenItems items = items.map toWritten := by
  induction items with
  | nil => rfl
  | cons x xs ih => rw [toWrittenItems, ih, List.map_cons]

theorem decode_uuid_eq_ok_iff {x : Json} {u : Uuid} :
    decode .uuid x = .ok u ↔ ∃ s, x = .str s ∧ Uuid.ofString? s = some u := by
  cases x with
  | str s => simp [decode, toWritten, Decoder.uuid, found_eq_ok_iff]
  | _ => simp [decode, toWritten, Decoder.uuid]

theorem decode_list_eq_ok_iff {d : Decoder α} {x : Json} {as : List α} :
    decode (.list d) x = .ok as ↔
      ∃ items, x = .arr items ∧ List.Forall₂ (fun y a => decode d y = .ok a) items as := by
  cases x with
  | arr items =>
    simp only [decode, toWritten, Decoder.list, mapM_eq_ok_iff, toWrittenItems_eq_map,
      List.forall₂_map_left_iff, arr.injEq, exists_eq_left']
  | _ => simp [decode, toWritten, Decoder.list]

end Isnad.Json
