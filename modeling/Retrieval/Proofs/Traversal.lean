import Retrieval.Error

/-! Doing one thing after the other, or one thing to every element of a list, until it fails. -/
namespace Retrieval

instance decidableEqExcept {ε α : Type} [DecidableEq ε] [DecidableEq α] :
    DecidableEq (Except ε α)
  | .ok a, .ok b => decidable_of_decidable_of_eq (Except.ok.injEq a b).symm
  | .error a, .error b => decidable_of_decidable_of_eq (Except.error.injEq a b).symm
  | .ok _, .error _ => isFalse nofun
  | .error _, .ok _ => isFalse nofun

variable {α β : Type} {f : α → Except Error β}

/-- Two steps only answer if the first does. -/
theorem exists_of_bind_ok {ε : Type} {x : Except ε α} {f : α → Except ε β} {y : β}
    (done : (x >>= f) = .ok y) : ∃ a, x = .ok a ∧ f a = .ok y := by
  cases x with
  | error e => cases done
  | ok a => exact ⟨a, rfl, done⟩

/-- What is made of an answer is made of one that was given. -/
theorem exists_of_map_ok {ε : Type} {x : Except ε α} {f : α → β} {y : β}
    (done : x.map f = .ok y) : ∃ a, x = .ok a ∧ f a = y := by
  cases x with
  | error e => cases done
  | ok a => exact ⟨a, rfl, Except.ok.inj done⟩

theorem bind_ok_iff {ε : Type} {x : Except ε α} {f : α → Except ε β} {y : β} :
    (x >>= f) = .ok y ↔ ∃ a, x = .ok a ∧ f a = .ok y := by
  refine ⟨exists_of_bind_ok, ?_⟩
  rintro ⟨a, rfl, done⟩
  exact done

/-- What an error is turned into matters only where there is one. -/
theorem mapError_ok_iff {ε δ : Type} {x : Except ε α} {f : ε → δ} {y : α} :
    x.mapError f = .ok y ↔ x = .ok y := by
  cases x with
  | error e => exact iff_of_false nofun nofun
  | ok a =>
    show Except.ok a = Except.ok y ↔ _
    rw [Except.ok.injEq, Except.ok.injEq]

theorem mapError_error_iff {ε δ : Type} {x : Except ε α} {f : ε → δ} {e : δ} :
    x.mapError f = .error e ↔ ∃ found, x = .error found ∧ e = f found := by
  cases x with
  | ok a => exact iff_of_false nofun nofun
  | error found =>
    constructor
    · intro same
      exact ⟨found, rfl, (Except.error.inj same).symm⟩
    · rintro ⟨_, same, rfl⟩
      cases same
      rfl

theorem toOption_eq_some_iff {ε : Type} {x : Except ε α} {a : α} :
    x.toOption = some a ↔ x = .ok a := by
  cases x <;> simp [Except.toOption]

/-- A check and what is done behind it. -/
theorem check_ok_iff {ε : Type} {check : Except ε Unit} {rest : Unit → Except ε β} {y : β} :
    (check >>= rest) = .ok y ↔ check = .ok () ∧ rest () = .ok y := by
  rw [bind_ok_iff]
  exact ⟨fun ⟨_, passed, done⟩ => ⟨passed, done⟩, fun ⟨passed, done⟩ => ⟨(), passed, done⟩⟩

theorem mapM_cons (f : α → Except Error β) (x : α) (rest : List α) :
    (x :: rest).mapM f = (f x).bind fun y => (rest.mapM f).map (y :: ·) := by
  rw [List.mapM_cons]
  rfl

theorem mapM_ok_iff {xs : List α} {ys : List β} :
    xs.mapM f = .ok ys ↔ xs.map f = ys.map .ok := by
  induction xs generalizing ys with
  | nil => cases ys <;> simp [pure, Except.pure]
  | cons x rest ih =>
    rw [mapM_cons, List.map_cons]
    cases first : f x with
    | error e => cases ys <;> simp [Except.bind]
    | ok y =>
      cases later : rest.mapM f with
      | error e => cases ys <;> simp [Except.bind, Except.map, ← ih, later]
      | ok zs => cases ys <;> simp [Except.bind, Except.map, ← ih, later]

/-- What is made of some element is all there is. -/
theorem exists_of_mapM_ok {xs : List α} {ys : List β} (done : xs.mapM f = .ok ys) {y : β}
    (member : y ∈ ys) : ∃ x ∈ xs, f x = .ok y :=
  List.mem_map.mp (mapM_ok_iff.mp done ▸ List.mem_map_of_mem member)

/-- If what is made of an element tells the element, the elements can be told from what is made. -/
theorem map_eq_of_mapM_ok {xs : List α} {ys : List β} {origin : β → α}
    (back : ∀ x ∈ xs, ∀ y, f x = .ok y → origin y = x) (done : xs.mapM f = .ok ys) :
    ys.map origin = xs := by
  replace done := mapM_ok_iff.mp done
  induction xs generalizing ys with
  | nil => rw [List.map_eq_nil_iff.mp done.symm, List.map_nil]
  | cons x rest ih =>
    cases ys with
    | nil => cases done
    | cons y ys =>
      rw [List.map_cons, List.map_cons, List.cons.injEq] at done
      obtain ⟨first, later⟩ := done
      rw [List.map_cons, back x List.mem_cons_self y first,
        ih (fun x member => back x (List.mem_cons_of_mem _ member)) later]

/-- Where the first element of a list that is `q` stands: in front, or behind one that is `p`. -/
theorem exists_first_cons {p q : α → Prop} {x : α} {rest : List α} :
    (∃ before y after, x :: rest = before ++ y :: after ∧ (∀ z ∈ before, p z) ∧ q y) ↔
      q x ∨ p x ∧ ∃ before y after, rest = before ++ y :: after ∧ (∀ z ∈ before, p z) ∧ q y := by
  constructor
  · intro first
    obtain ⟨before, y, after, split, fine, here⟩ := first
    cases before with
    | nil =>
      cases split
      exact .inl here
    | cons head before =>
      cases split
      obtain ⟨front, fine⟩ := List.forall_mem_cons.mp fine
      exact .inr ⟨front, before, y, after, rfl, fine, here⟩
  · intro first
    rcases first with here | ⟨front, before, y, after, rfl, fine, here⟩
    · exact ⟨[], x, rest, rfl, by simp, here⟩
    · exact ⟨x :: before, y, after, rfl, List.forall_mem_cons.mpr ⟨front, fine⟩, here⟩

/-- The error is that of the first element that fails. -/
theorem mapM_error_iff {xs : List α} {e : Error} :
    xs.mapM f = .error e ↔ ∃ before x after, xs = before ++ x :: after ∧
      (∀ y ∈ before, ∃ z, f y = .ok z) ∧ f x = .error e := by
  induction xs with
  | nil => simp [pure, Except.pure]
  | cons x rest ih =>
    rw [exists_first_cons, ← ih, mapM_cons]
    cases f x with
    | error e' => simp [Except.bind]
    | ok y => cases rest.mapM f <;> simp [Except.bind, Except.map]

theorem forM_cons (f : α → Except Error Unit) (x : α) (rest : List α) :
    (x :: rest).forM f = (f x).bind fun _ => rest.forM f := rfl

theorem forM_ok_iff {check : α → Except Error Unit} {xs : List α} :
    xs.forM check = .ok () ↔ ∀ x ∈ xs, check x = .ok () := by
  induction xs with
  | nil => exact iff_of_true rfl (by simp)
  | cons x rest ih =>
    rw [forM_cons, List.forall_mem_cons, ← ih]
    cases check x <;> simp [Except.bind]

/-- The first element that is refused is the error. -/
theorem forM_error_iff {check : α → Except Error Unit} {xs : List α} {e : Error} :
    xs.forM check = .error e ↔ ∃ before x after, xs = before ++ x :: after ∧
      (∀ y ∈ before, check y = .ok ()) ∧ check x = .error e := by
  induction xs with
  | nil => simp [List.forM, pure, Except.pure]
  | cons x rest ih =>
    rw [exists_first_cons, ← ih, forM_cons]
    cases check x <;> simp [Except.bind]

end Retrieval
