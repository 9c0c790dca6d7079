import LikelyInvariants.Error

/-!
# Steps that may fail

`Update.exec` runs a step on a state: a result or an error, and the state the step left either
way. The lemmas of the first part compute it through the constructs that steps are written with.

A relation between states holds along a step when it relates the state before to the state after,
whatever the result (`Update.Keeps`). For a reflexive and transitive relation this goes through
sequencing and loops, a failing step included.
-/

namespace LikelyInvariants.Update

variable {σ α β : Type}

/-! ## Running a step -/

section Exec

/-- The result of a step and the state it leaves. -/
def exec (m : Update σ α) (s : σ) : Except Error α × σ := m.run.run s

@[simp] theorem exec_pure (a : α) (s : σ) : exec (pure a : Update σ α) s = (.ok a, s) := rfl

@[simp] theorem exec_throw (e : Error) (s : σ) :
    exec (throw e : Update σ α) s = (.error e, s) := rfl

@[simp] theorem exec_get (s : σ) : exec (get : Update σ σ) s = (.ok s, s) := rfl

@[simp] theorem exec_set (t s : σ) : exec (set t : Update σ PUnit) s = (.ok ⟨⟩, t) := rfl

@[simp] theorem exec_modify (f : σ → σ) (s : σ) :
    exec (modify f : Update σ PUnit) s = (.ok ⟨⟩, f s) := rfl

/-- A computation without access to the state leaves it alone. -/
@[simp] theorem exec_lift (e : Except Error α) (s : σ) :
    exec (liftM e : Update σ α) s = (e, s) := by
  cases e <;> rfl

/-- The second of two steps runs if the first one succeeds, on the state that it left. -/
theorem exec_bind (m : Update σ α) (f : α → Update σ β) (s : σ) :
    exec (m >>= f) s = match exec m s with
      | (.ok a, t) => exec (f a) t
      | (.error e, t) => (.error e, t) := by
  unfold exec
  show (ExceptT.run (ExceptT.bind m f)).run s = _
  simp only [ExceptT.bind, ExceptT.run, ExceptT.mk]
  show (match (StateT.run m s : Except Error α × σ) with
    | (a, t) => StateT.run (ExceptT.bindCont f a) t) = _
  rcases h : (StateT.run m s : Except Error α × σ) with ⟨a | a, t⟩ <;> rfl

theorem exec_bind_ok {m : Update σ α} {f : α → Update σ β} {s t : σ} {a : α}
    (h : exec m s = (.ok a, t)) : exec (m >>= f) s = exec (f a) t := by
  rw [exec_bind, h]

theorem exec_bind_error {m : Update σ α} {f : α → Update σ β} {s t : σ} {e : Error}
    (h : exec m s = (.error e, t)) : exec (m >>= f) s = (.error e, t) := by
  rw [exec_bind, h]

/-- Two sequences do the same if their first steps do and what follows these does. -/
theorem exec_bind_congr {m n : Update σ α} {f g : α → Update σ β} {s : σ}
    (hm : exec m s = exec n s) (hf : ∀ a t, exec n s = (.ok a, t) → exec (f a) t = exec (g a) t) :
    exec (m >>= f) s = exec (n >>= g) s := by
  rw [exec_bind, exec_bind, hm]
  rcases h : exec n s with ⟨e | a, t⟩
  · rfl
  · exact hf a t h

/-- Steps that read the state and leave it alone, one for each element of a list. -/
theorem exec_mapM {f : α → Update σ β} {g : α → β} {s : σ} :
    ∀ {l : List α}, (∀ a ∈ l, exec (f a) s = (.ok (g a), s)) →
      exec (l.mapM f) s = (.ok (l.map g), s)
  | [], _ => rfl
  | a :: l, h => by
    rw [List.mapM_cons, exec_bind_ok (h a List.mem_cons_self),
      exec_bind_ok (exec_mapM fun b hb => h b (List.mem_cons_of_mem a hb))]
    rfl

@[simp] theorem map_ok (f : α → β) (a : α) : (Except.ok a : Except Error α).map f = .ok (f a) :=
  rfl

@[simp] theorem map_error (f : α → β) (e : Error) :
    (Except.error e : Except Error α).map f = .error e := rfl

@[simp] theorem isOk_ok (a : α) : (Except.ok a : Except Error α).isOk = true := rfl

@[simp] theorem isOk_error (e : Error) : (Except.error e : Except Error α).isOk = false := rfl

@[simp] theorem exec_map (f : α → β) (m : Update σ α) (s : σ) :
    exec (f <$> m) s = ((exec m s).1.map f, (exec m s).2) := by
  rw [← bind_pure_comp, exec_bind]
  rcases exec m s with ⟨e | a, t⟩ <;> rfl

/-- A step whose result is dropped leaves the same state. -/
@[simp] theorem exec_discard (m : Update σ α) (s : σ) :
    (exec (do let _ ← m : Update σ Unit) s).2 = (exec m s).2 := by
  rw [exec_bind]
  rcases exec m s with ⟨e | a, t⟩ <;> rfl

end Exec

/-! ## Relations along a step -/

section Keeps

/-- The relation holds between the state before the step and the state after it. -/
def Keeps (R : σ → σ → Prop) (m : Update σ α) : Prop := ∀ s, R s (exec m s).2

variable {R : σ → σ → Prop}

theorem keeps_pure (hrefl : ∀ s, R s s) (a : α) : Keeps R (pure a) := fun s => hrefl s

theorem keeps_lift (hrefl : ∀ s, R s s) (e : Except Error α) :
    Keeps R (liftM e : Update σ α) := by
  intro s
  rw [exec_lift]
  exact hrefl s

variable (htrans : ∀ r s t, R r s → R s t → R r t)

include htrans in
/-- The relation holds along two steps if it holds along the first one, started where it is
started, and along the second one, started where the first one can end. -/
theorem rel_bind {m : Update σ α} {f : α → Update σ β} {s : σ} (hm : R s (exec m s).2)
    (hf : ∀ a t, exec m s = (.ok a, t) → R t (exec (f a) t).2) : R s (exec (m >>= f) s).2 := by
  rcases h : exec m s with ⟨e | a, t⟩
  · rw [exec_bind_error h]
    simpa only [h] using hm
  · rw [exec_bind_ok h]
    rw [h] at hm
    exact htrans _ _ _ hm (hf a t h)

include htrans in
theorem keeps_bind {m : Update σ α} {f : α → Update σ β} (hm : Keeps R m)
    (hf : ∀ a, Keeps R (f a)) : Keeps R (m >>= f) :=
  fun s => rel_bind htrans (hm s) fun a t _ => hf a t

include htrans in
theorem keeps_forM (hrefl : ∀ s, R s s) {f : α → Update σ PUnit} :
    ∀ (l : List α), (∀ a ∈ l, Keeps R (f a)) → Keeps R (l.forM f)
  | [], _ => keeps_pure hrefl _
  | a :: l, h => by
    show Keeps R (f a >>= fun _ => l.forM f)
    refine keeps_bind htrans (h a List.mem_cons_self) fun _ => ?_
    exact keeps_forM hrefl l fun b hb => h b (List.mem_cons_of_mem a hb)

include htrans in
theorem keeps_mapM (hrefl : ∀ s, R s s) {f : α → Update σ β} :
    ∀ (l : List α), (∀ a ∈ l, Keeps R (f a)) → Keeps R (l.mapM f)
  | [], _ => keeps_pure hrefl _
  | a :: l, h => by
    rw [List.mapM_cons]
    refine keeps_bind htrans (h a List.mem_cons_self) fun _ => ?_
    refine keeps_bind htrans ?_ fun _ => keeps_pure hrefl _
    exact keeps_mapM hrefl l fun b hb => h b (List.mem_cons_of_mem a hb)

end Keeps

end LikelyInvariants.Update
