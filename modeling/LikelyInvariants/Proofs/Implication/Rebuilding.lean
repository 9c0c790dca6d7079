import LikelyInvariants.Proofs.Implication.Representative

/-!
# Building implications again

Building implications drops some that were built, and building them again brings these back before
it drops what is superfluous. The two-way implications are the same both times, so the same are
superfluous (`Point.addImplications_addImplications`). Nothing else that is built depends on what
points hold, so nothing changes if implications are built twice in a row
(`Context.addImplications_again`).
-/

namespace LikelyInvariants

open Update Contrast

namespace Point

variable (p : Point)

/-- What stayed the first time stays again, and what was dropped is dropped again. -/
theorem addImplications_addImplications (imps : List Implication) :
    (p.addImplications imps).addImplications imps = p.addImplications imps := by
  unfold addImplications
  dsimp only
  generalize hheld : imps.foldl (fun held i => if i ∈ held then held else held ++ [i])
    p.implications = held
  have hbuilt (i : Implication) (hi : i ∈ imps) : i ∈ held := by
    rw [← hheld]
    exact mem_foldl_insert.mpr (.inr hi)
  generalize hagain : imps.foldl (fun held i => if i ∈ held then held else held ++ [i])
    (Implication.canonicalize held) = again
  -- the two-way implications decide what stays, and they were all kept
  have hequations : again.filter (·.iff) = held.filter (·.iff) := by
    rw [← hagain, filter_foldl_insert fun i hi hiff =>
      Implication.mem_canonicalize.mpr ⟨hbuilt i hi, .inl hiff⟩]
    exact Implication.filter_iff_canonicalize held
  have hstays : again.filter (Implication.stays held) =
      (Implication.canonicalize held).filter (Implication.stays held) := by
    rw [← hagain]
    exact filter_foldl_insert fun i hi hstay => List.mem_filter.mpr ⟨hbuilt i hi, hstay⟩
  have hcanonicalize : Implication.canonicalize again = Implication.canonicalize held := by
    rw [Implication.canonicalize_eq again, Implication.stays_congr hequations, hstays,
      Implication.canonicalize_eq, List.filter_filter]
    simp
  rw [hcanonicalize]

theorem addUnconditional_addUnconditional (terms : List Term) :
    (p.addUnconditional terms).addUnconditional terms = p.addUnconditional terms := by
  have hself (held : List Term) (t : Term) : (held ++ [t]).any (·.source = t.source) := by simp
  have hmore (held : List Term) (t u : Term) (h : held.any (·.source = t.source)) :
      (held ++ [u]).any (·.source = t.source) := by
    rw [List.any_append, h, Bool.true_or]
  have hskipped (t : Term) (ht : t ∈ terms) :
      (p.addUnconditional terms).unconditional.any (·.source = t.source) :=
    skip_foldl_insert (fun (held : List Term) (t : Term) => held.any (·.source = t.source) = true)
      hself hmore (.inr ht)
  have hsame : terms.foldl
      (fun held t => if held.any (·.source = t.source) then held else held ++ [t])
      (p.addUnconditional terms).unconditional = (p.addUnconditional terms).unconditional :=
    foldl_insert_of_skipped (fun (held : List Term) (t : Term) =>
      held.any (·.source = t.source) = true) hskipped
  exact congrArg (fun held => { p with unconditional := held }) hsame

end Point

namespace Context

section Again

variable {ctx : Context} {id : Nat} {p : Point}

/-- What the children of a point agree and differ on does not depend on what the point holds. -/
theorem Attained.contrasts_built (h : ctx.Attained) (hp : ctx.points[id]? = some p) :
    (ctx.built id p).contrasts (ctx.contrasted p) = ctx.contrasts p := by
  have hchildren : (ctx.contrasted p).children = p.children :=
    (annotated_contrasted ctx p).steady.children
  have hsampled : ∀ child ∈ p.children, (ctx.built id p).sampled? child = ctx.sampled? child := by
    intro child hchild
    have hlt := (List.pairwise_cons.mp (h.wellFormed.ascending hp)).1 child hchild
    unfold sampled? built
    dsimp only
    rw [List.getElem?_set_ne (Nat.ne_of_lt hlt)]
  have hall : p.children.filterMap (ctx.built id p).sampled? =
      p.children.filterMap ctx.sampled? := List.filterMap_congr hsampled
  have hsame : (ctx.built id p).sampledChildren (ctx.contrasted p) = ctx.sampledChildren p := by
    show (if _ then (ctx.contrasted p).children.filterMap (ctx.built id p).sampled? else
      ((ctx.contrasted p).children.filterMap (ctx.built id p).sampled?).take 2) = _
    rw [hchildren, hall]
    rfl
  unfold contrasts
  rw [hsame]

theorem Attained.contrasted_built (h : ctx.Attained) (hp : ctx.points[id]? = some p) :
    (ctx.built id p).contrasted (ctx.contrasted p) = ctx.contrasted p := by
  have himplications (imps : List Implication) (terms : List Term) :
      (((p.addImplications imps).addUnconditional terms).addImplications imps).addUnconditional
        terms = (p.addImplications imps).addUnconditional terms := by
    show (((p.addImplications imps).addImplications imps).addUnconditional terms).addUnconditional
      terms = _
    rw [Point.addUnconditional_addUnconditional, Point.addImplications_addImplications]
  show (if ctx.config.addNonimplications then
      ((ctx.contrasted p).addImplications _).addUnconditional _ else
      (ctx.contrasted p).addImplications _) = _
  rw [h.contrasts_built hp]
  unfold contrasted
  dsimp only
  split
  · exact himplications _ _
  · exact p.addImplications_addImplications _

/-- **Building implications twice in a row is building them once.** For every context that a session
attains and every point, the second time has the same outcome, and nothing in the context changes:
the point holds the same implications in the same order, and the same unconditional terms. -/
theorem addImplications_again (h : ctx.Attained) (id : Nat) :
    (addImplications id).exec ((addImplications id).exec ctx).2 =
      (addImplications id).exec ctx := by
  cases hp : ctx.points[id]? with
  | none => rw [exec_addImplications_none hp, exec_addImplications_none hp]
  | some p =>
    have hbuilt : (ctx.built id p).points[id]? = some (ctx.contrasted p) :=
      List.getElem?_set_self (lt_of_point hp)
    rw [exec_addImplications_some hp]
    show (addImplications id).exec (ctx.built id p) = _
    rw [exec_addImplications_some hbuilt, h.contrasted_built hp]
    unfold built
    rw [List.set_set]

/-- A point that holds a stale implication beside a current one goes on to hold both. -/
theorem addImplications_again_lateValue : ∃ ctx',
    (addImplications 0).exec (ofValues.after lateValue) = (.ok 3, ctx') ∧
      (addImplications 0).exec ctx' = (.ok 3, ctx') ∧
      ctx'.points = [signParent [-1, 1, 2] 9 [isMinusOne, isOne, isOneOrTwo],
        signChild false [-1] 3, signChild true [1, 2] 6] := by
  obtain ⟨ctx', hexec, hpoints⟩ := exec_addImplications_lateValue
  have hagain := addImplications_again ⟨ofValues, lateValue, rfl, rfl⟩ 0
  rw [hexec] at hagain
  exact ⟨ctx', hexec, hagain, hpoints⟩

end Again

end Context

end LikelyInvariants
