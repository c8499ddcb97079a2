import Mathlib.Data.List.Forall2

/-!
# Steps in sequence

Two steps succeed exactly when the second one succeeds with the result of the first. An
action on each member of a list succeeds exactly when it succeeds on every member, and
the results correspond position by position. An action that fails on some member fails as
it does on the first such member.
-/
namespace Flowgraph

variable {α β γ ε : Type}

theorem bind_eq_ok {x : Except ε α} {f : α → Except ε β} {b : β} :
    (x >>= f) = .ok b ↔ ∃ a, x = .ok a ∧ f a = .ok b := by
  cases x <;> simp [bind, Except.bind]

theorem bind_eq_error {x : Except ε α} {e : ε} (fails : x = .error e) (f : α → Except ε β) :
    (x >>= f) = .error e := by
  rw [fails]
  rfl

theorem mapM_cons_eq_ok {f : α → Except ε β} {x : α} {xs : List α} {ys : List β} :
    (x :: xs).mapM f = .ok ys ↔
      ∃ y zs, f x = .ok y ∧ xs.mapM f = .ok zs ∧ ys = y :: zs := by
  rw [List.mapM_cons, bind_eq_ok]
  refine exists_congr fun y => ?_
  rw [exists_and_left, bind_eq_ok]
  refine and_congr_right fun _ => exists_congr fun zs => and_congr_right fun _ => ?_
  exact ⟨fun h => (Except.ok.inj h).symm, fun h => h ▸ rfl⟩

theorem mapM_cons_eq_error {f : α → Except ε β} {x : α} {xs : List α} {e : ε} :
    (x :: xs).mapM f = .error e ↔
      f x = .error e ∨ (∃ y, f x = .ok y) ∧ xs.mapM f = .error e := by
  rw [List.mapM_cons]
  cases f x with
  | error e' => simp [bind, Except.bind]
  | ok y => cases xs.mapM f <;> simp [bind, Except.bind, pure, Except.pure]

theorem mapM_eq_ok_iff (f : α → Except ε β) (xs : List α) (ys : List β) :
    xs.mapM f = .ok ys ↔ List.Forall₂ (fun x y => f x = .ok y) xs ys := by
  induction xs generalizing ys with
  | nil =>
    rw [List.mapM_nil, List.forall₂_nil_left_iff]
    exact ⟨fun h => (Except.ok.inj h).symm, fun h => h ▸ rfl⟩
  | cons x xs ih =>
    rw [mapM_cons_eq_ok, List.forall₂_cons_left_iff]
    constructor
    · rintro ⟨y, zs, hy, hzs, rfl⟩
      exact ⟨y, zs, hy, (ih zs).mp hzs, rfl⟩
    · rintro ⟨y, zs, hy, hzs, rfl⟩
      exact ⟨y, zs, hy, (ih zs).mpr hzs, rfl⟩

theorem mapM_eq_some_iff (f : α → Option β) (xs : List α) (ys : List β) :
    xs.mapM f = some ys ↔ List.Forall₂ (fun x y => f x = some y) xs ys := by
  induction xs generalizing ys with
  | nil =>
    rw [List.mapM_nil, List.forall₂_nil_left_iff]
    exact ⟨fun h => (Option.some.inj h).symm, fun h => h ▸ rfl⟩
  | cons x xs ih =>
    rw [List.mapM_cons, List.forall₂_cons_left_iff]
    constructor
    · intro h
      obtain ⟨y, hy, h⟩ := Option.bind_eq_some_iff.mp h
      obtain ⟨zs, hzs, h⟩ := Option.bind_eq_some_iff.mp h
      exact ⟨y, zs, hy, (ih zs).mp hzs, (Option.some.inj h).symm⟩
    · rintro ⟨y, zs, hy, h, rfl⟩
      rw [hy, (ih zs).mpr h]
      rfl

theorem mapM_option_congr {f g : α → Option β} {xs : List α} (h : ∀ x ∈ xs, f x = g x) :
    xs.mapM f = xs.mapM g := by
  induction xs with
  | nil => rfl
  | cons x xs ih =>
    have rest : xs.mapM f = xs.mapM g := ih fun x' hx' => h x' (List.mem_cons_of_mem x hx')
    rw [List.mapM_cons, List.mapM_cons, h x List.mem_cons_self, rest]

theorem mapM_forall₂_congr {R : α → β → Prop} {xs : List α} {ys : List β}
    (h : List.Forall₂ R xs ys) {f : α → Except ε γ} {g : β → Except ε γ}
    (same : ∀ x y, R x y → f x = g y) : xs.mapM f = ys.mapM g := by
  induction h with
  | nil => rfl
  | cons r _ ih => rw [List.mapM_cons, List.mapM_cons, same _ _ r, ih]

theorem exists_mapM_eq_ok {f : α → Except ε β} {xs : List α} (h : ∀ x ∈ xs, ∃ y, f x = .ok y) :
    ∃ ys, xs.mapM f = .ok ys := by
  induction xs with
  | nil => exact ⟨[], rfl⟩
  | cons x xs ih =>
    obtain ⟨y, hy⟩ := h x List.mem_cons_self
    obtain ⟨ys, hys⟩ := ih fun x' hx' => h x' (List.mem_cons_of_mem x hx')
    exact ⟨y :: ys, mapM_cons_eq_ok.mpr ⟨y, ys, hy, hys, rfl⟩⟩

/-- What holds of every result holds position by position. -/
theorem exists_mapM_forall₂ {f : α → Except ε β} {R : β → α → Prop} {xs : List α}
    (h : ∀ x ∈ xs, ∃ y, f x = .ok y ∧ R y x) :
    ∃ ys, xs.mapM f = .ok ys ∧ List.Forall₂ R ys xs := by
  induction xs with
  | nil => exact ⟨[], rfl, .nil⟩
  | cons x xs ih =>
    obtain ⟨y, hy, own⟩ := h x List.mem_cons_self
    obtain ⟨ys, hys, others⟩ := ih fun x' hx' => h x' (List.mem_cons_of_mem x hx')
    exact ⟨y :: ys, mapM_cons_eq_ok.mpr ⟨y, ys, hy, hys, rfl⟩, .cons own others⟩

/-- An action fails as it does on the first member that it fails on. -/
theorem mapM_eq_error_iff {f : α → Except ε β} {xs : List α} {e : ε} :
    xs.mapM f = .error e ↔ ∃ before x after, xs = before ++ x :: after ∧
      (∀ y ∈ before, ∃ b, f y = .ok b) ∧ f x = .error e := by
  induction xs with
  | nil => simp [pure, Except.pure]
  | cons x xs ih =>
    rw [mapM_cons_eq_error, ih]
    constructor
    · rintro (fails | ⟨own, before, y, after, rfl, done, fails⟩)
      · exact ⟨[], x, xs, rfl, nofun, fails⟩
      · exact ⟨x :: before, y, after, rfl, List.forall_mem_cons.mpr ⟨own, done⟩, fails⟩
    · rintro ⟨before, y, after, parted, done, fails⟩
      rcases List.cons_eq_append_iff.mp parted with ⟨rfl, same⟩ | ⟨before, rfl, rfl⟩
      · cases same
        exact .inl fails
      · obtain ⟨own, done⟩ := List.forall_mem_cons.mp done
        exact .inr ⟨own, before, y, after, rfl, done, fails⟩

theorem mapM_error {f : α → Except ε β} {xs : List α} {e : ε} (h : xs.mapM f = .error e) :
    ∃ x ∈ xs, f x = .error e := by
  obtain ⟨before, x, after, rfl, -, fails⟩ := mapM_eq_error_iff.mp h
  exact ⟨x, List.mem_append_right before List.mem_cons_self, fails⟩

/-- Members that are all images are so of a list that corresponds to the results as well. -/
theorem forall₂_of_image {g : γ → α} {R : γ → β → Prop} {xs : List α} {ys : List β}
    (h : List.Forall₂ (fun x y => ∃ z, x = g z ∧ R z y) xs ys) :
    ∃ zs, xs = zs.map g ∧ List.Forall₂ R zs ys := by
  induction h with
  | nil => exact ⟨[], rfl, .nil⟩
  | cons own _ ih =>
    obtain ⟨z, rfl, r⟩ := own
    obtain ⟨zs, rfl, others⟩ := ih
    exact ⟨z :: zs, rfl, .cons r others⟩

theorem forall₂_exists_right {R : α → β → Prop} {xs : List α} {ys : List β}
    (h : List.Forall₂ R xs ys) {x : α} (hx : x ∈ xs) : ∃ y ∈ ys, R x y := by
  induction h with
  | nil => exact False.elim (List.not_mem_nil hx)
  | cons r _ ih =>
    rcases List.mem_cons.mp hx with rfl | hx
    · exact ⟨_, List.mem_cons_self, r⟩
    · obtain ⟨y, hy, hr⟩ := ih hx
      exact ⟨y, List.mem_cons_of_mem _ hy, hr⟩

theorem forall₂_exists_left {R : α → β → Prop} {xs : List α} {ys : List β}
    (h : List.Forall₂ R xs ys) {y : β} (hy : y ∈ ys) : ∃ x ∈ xs, R x y :=
  forall₂_exists_right h.flip hy

theorem forall₂_map_eq {R : α → β → Prop} {xs : List α} {ys : List β}
    (h : List.Forall₂ R xs ys) {f : α → γ} {g : β → γ} (same : ∀ x y, R x y → g y = f x) :
    ys.map g = xs.map f := by
  induction h with
  | nil => rfl
  | cons r _ ih => rw [List.map_cons, List.map_cons, same _ _ r, ih]

/-- Behind the members of a class at the head stands one that is not of the class. -/
theorem head_dropWhile {p : α → Bool} {s : List α} {c : α}
    (head : (s.dropWhile p).head? = some c) : p c = false := by
  have here := List.head?_dropWhile_not p s
  rw [head] at here
  exact here

/-- In a list that has each key once, every entry is found under its key. -/
theorem lookup_of_mem {l : List (String × β)} (distinct : (l.map (·.1)).Nodup) {f : String × β}
    (member : f ∈ l) : l.lookup f.1 = some f.2 := by
  induction l with
  | nil => exact False.elim (List.not_mem_nil member)
  | cons g l ih =>
    obtain ⟨fresh, distinct⟩ := List.nodup_cons.mp distinct
    rw [List.lookup_cons]
    rcases List.mem_cons.mp member with rfl | member
    · rw [beq_self_eq_true]
    · have other : f.1 ≠ g.1 := by
        intro same
        exact fresh (List.mem_map.mpr ⟨f, member, same⟩)
      rw [beq_false_of_ne other]
      exact ih distinct member

end Flowgraph
