import EntityService.Store.Selection

/-!
# Stable order of rows

What it means that a list is another one in order, with what is tied left as it stands.

## Main definitions

* `IsOrderOn` — comparisons among the members of a list obey the laws of an order
* `IsStableSort` — a list holds the members of another one in order, and tied members as they stand
  there

## Main results

* `IsOrderOn.isStableSort_mergeSort` — sorting gives the list in order
* `IsStableSort.filter` — members that are left out do not matter to the others
* `IsStableSort.eq` — there is only one such list

## Design notes

A comparison of rows is an order on the rows of one table at most, since the cells of a column
decide whether they can be put in order.  So the laws are asked of the members of a list only.
-/

namespace EntityService.Store

open EntityService.Json

variable {α : Type} {order : α → α → Ordering} {rows sorted other : List α}

/-- The comparison of the members of a list. -/
abbrev memberOrder (order : α → α → Ordering) (rows : List α) (a b : {row // row ∈ rows}) :
    Ordering :=
  order a.1 b.1

/-- Comparisons among the members of a list obey the laws of an order. -/
def IsOrderOn (order : α → α → Ordering) (rows : List α) : Prop :=
  Std.TransCmp (memberOrder order rows)

/-- A list holds the members of another one in order, with tied members in the order in which they
stand there. -/
structure IsStableSort (order : α → α → Ordering) (sorted rows : List α) : Prop where
  perm : sorted.Perm rows
  ascending : sorted.Pairwise fun a b => order a b ≠ .gt
  stable : ∀ part : List α, part.Sublist rows → part.Pairwise (fun a b => order a b = .eq) →
    part.Sublist sorted

/-- What agrees with an order among the members of a list is an order on them. -/
theorem isOrderOn_of_eq (cmp : α → α → Ordering) [Std.TransCmp cmp]
    (h : ∀ a ∈ rows, ∀ b ∈ rows, order a b = cmp a b) : IsOrderOn order rows where
  eq_swap {a b} := by
    dsimp only [memberOrder]
    rw [h a a.2 b b.2, h b b.2 a a.2]
    exact Std.OrientedCmp.eq_swap
  isLE_trans {a b c} := by
    dsimp only [memberOrder]
    rw [h a a.2 b b.2, h b b.2 c c.2, h a a.2 c c.2]
    exact Std.TransCmp.isLE_trans

namespace IsOrderOn

/-- Descending order. -/
theorem descending (h : IsOrderOn order rows) :
    IsOrderOn (fun a b => (order a b).swap) rows := by
  have : Std.TransCmp (memberOrder order rows) := h
  have hopposite : memberOrder (fun a b => (order a b).swap) rows =
      fun a b => memberOrder order rows b a := funext fun a => funext fun b => h.eq_swap.symm
  rw [IsOrderOn, hopposite]
  exact Std.TransCmp.opposite

/-- One order among what another one leaves tied. -/
theorem lex {next : α → α → Ordering} (h : IsOrderOn order rows) (hnext : IsOrderOn next rows) :
    IsOrderOn (fun a b => (order a b).then (next a b)) rows := by
  have : Std.TransCmp (memberOrder order rows) := h
  have : Std.TransCmp (memberOrder next rows) := hnext
  exact (inferInstance : Std.TransCmp (compareLex (memberOrder order rows) (memberOrder next rows)))

/-- The laws hold among some of the members as well. -/
theorem subset (h : IsOrderOn order rows) (hsubset : other ⊆ rows) : IsOrderOn order other := by
  let inRows (row : {row // row ∈ other}) : {row // row ∈ rows} := ⟨row.1, hsubset row.2⟩
  exact
    { eq_swap := fun {a b} => h.eq_swap (a := inRows a) (b := inRows b)
      isLE_trans := fun {a b c} => h.isLE_trans (a := inRows a) (b := inRows b) (c := inRows c) }

section Laws

variable (h : IsOrderOn order rows) {a b c : α} (ha : a ∈ rows) (hb : b ∈ rows) (hc : c ∈ rows)

include h ha

theorem self : order a a = .eq := by
  have : Std.TransCmp (memberOrder order rows) := h
  let member : {row // row ∈ rows} := ⟨a, ha⟩
  exact (Std.ReflCmp.compare_self : memberOrder order rows member member = .eq)

include hb

theorem swap : order a b = (order b a).swap := h.eq_swap (a := ⟨a, ha⟩) (b := ⟨b, hb⟩)

/-- Of two members one is not after the other. -/
theorem eq_of_ne_gt (hab : order a b ≠ .gt) (hba : order b a ≠ .gt) : order a b = .eq := by
  rw [h.swap hb ha] at hba
  cases horder : order a b <;> simp_all

include hc

theorem eq_trans (hab : order a b = .eq) (hbc : order b c = .eq) : order a c = .eq := by
  have : Std.TransCmp (memberOrder order rows) := h
  have htied : memberOrder order rows ⟨a, ha⟩ ⟨b, hb⟩ = .eq := hab
  exact Std.TransCmp.eq_trans (c := ⟨c, hc⟩) htied hbc

end Laws

/-- Sorting gives the list in order. -/
theorem isStableSort_mergeSort (h : IsOrderOn order rows) :
    IsStableSort order (rows.mergeSort fun a b => order a b != .gt) rows := by
  let le (a b : {row // row ∈ rows}) : Bool := memberOrder order rows a b != .gt
  have hle : ∀ a b, le a b = (memberOrder order rows a b).isLE := fun a b => by
    cases horder : memberOrder order rows a b <;> simp [le, horder]
  have htrans : ∀ a b c, le a b → le b c → le a c := by
    simp only [hle]
    exact fun _ _ _ => h.isLE_trans
  have htotal : ∀ a b, le a b || le b a := fun a b => by
    rw [hle, hle, h.eq_swap]
    cases memberOrder order rows b a <;> rfl
  -- the laws are those of the members, so it is these that are sorted
  have hmap : (rows.attach.mergeSort le).map Subtype.val =
      rows.mergeSort fun a b => order a b != .gt := by
    have hsorted := @List.map_mergeSort _ _ le (fun a b => order a b != .gt) Subtype.val
      rows.attach fun _ _ _ _ => rfl
    rwa [List.attach_map_subtype_val] at hsorted
  refine ⟨List.mergeSort_perm _ _, ?_, ?_⟩
  · rw [← hmap, List.pairwise_map]
    exact (List.pairwise_mergeSort htrans htotal _).imp fun h => bne_iff_ne.mp h
  · intro part hpart hties
    rw [← List.attach_map_subtype_val rows] at hpart
    obtain ⟨members, hmembers, rfl⟩ := List.sublist_map_iff.mp hpart
    rw [← hmap]
    refine (List.sublist_mergeSort htrans htotal ?_ hmembers).map _
    refine (List.pairwise_map.mp hties).imp fun {a b} htie => ?_
    rw [hle, memberOrder, htie]
    rfl

end IsOrderOn

namespace IsStableSort

/-- Members that are left out do not matter to the others. -/
theorem filter (h : IsStableSort order sorted rows) (test : α → Bool) :
    IsStableSort order (sorted.filter test) (rows.filter test) where
  perm := h.perm.filter test
  ascending := h.ascending.filter test
  stable part hpart hties := by
    have hmem : ∀ row ∈ part, test row := fun row hrow =>
      (List.mem_filter.mp (hpart.subset hrow)).2
    have hsublist := (h.stable part (hpart.trans List.filter_sublist) hties).filter test
    rwa [List.filter_eq_self.mpr hmem] at hsublist

/-- The members that are tied with one of them stand as they did. -/
theorem filter_tied (h : IsStableSort order sorted rows) (horder : IsOrderOn order rows) {row : α}
    (hrow : row ∈ rows) :
    sorted.filter (fun b => order row b == .eq) = rows.filter fun b => order row b == .eq := by
  have hties : (rows.filter fun b => order row b == .eq).Pairwise fun a b => order a b = .eq := by
    refine List.pairwise_of_forall_mem_list fun a ha b hb => ?_
    obtain ⟨ha, hrowa⟩ := List.mem_filter.mp ha
    obtain ⟨hb, hrowb⟩ := List.mem_filter.mp hb
    have hback : order a row = .eq := by
      rw [horder.swap ha hrow, beq_iff_eq.mp hrowa]
      rfl
    exact horder.eq_trans ha hrow hb hback (beq_iff_eq.mp hrowb)
  have hsublist := (h.stable _ List.filter_sublist hties).filter fun b => order row b == .eq
  rw [List.filter_filter] at hsublist
  simp only [Bool.and_self] at hsublist
  exact (hsublist.eq_of_length (h.perm.filter _).length_eq.symm).symm

end IsStableSort

/-- Lists in order are the same when the same members are tied in them in the same order. -/
theorem eq_of_filter_tied_eq (horder : IsOrderOn order sorted) (hperm : sorted.Perm other)
    (hsorted : sorted.Pairwise fun a b => order a b ≠ .gt)
    (hother : other.Pairwise fun a b => order a b ≠ .gt)
    (htied : ∀ row ∈ sorted, sorted.filter (fun b => order row b == .eq) =
      other.filter fun b => order row b == .eq) : sorted = other := by
  induction sorted generalizing other with
  | nil => exact hperm.nil_eq
  | cons a rest ih =>
      cases other with
      | nil => exact absurd hperm.eq_nil (List.cons_ne_nil a rest)
      | cons b more =>
          have ha : a ∈ a :: rest := List.mem_cons_self
          have hb : b ∈ a :: rest := hperm.mem_iff.mpr List.mem_cons_self
          have hself := horder.self ha
          -- the two first members are tied, since each is not after the other
          have htie : order a b = .eq := by
            rcases List.mem_cons.mp hb with rfl | hrest
            · exact hself
            rcases List.mem_cons.mp (hperm.subset ha) with rfl | hmore
            · exact hself
            · exact horder.eq_of_ne_gt ha hb ((List.pairwise_cons.mp hsorted).1 b hrest)
                ((List.pairwise_cons.mp hother).1 a hmore)
          have hfirst := htied a ha
          simp only [List.filter_cons, hself, htie, beq_self_eq_true, if_true] at hfirst
          obtain ⟨rfl, -⟩ := List.cons.inj hfirst
          refine congrArg (a :: ·) (ih (horder.subset (List.subset_cons_self a rest))
            hperm.cons_inv hsorted.of_cons hother.of_cons fun row hrow => ?_)
          have hrow := htied row (List.mem_cons_of_mem a hrow)
          simp only [List.filter_cons] at hrow
          split at hrow
          · exact (List.cons.inj hrow).2
          · exact hrow

/-- There is only one list in order. -/
theorem IsStableSort.eq (h : IsStableSort order sorted rows)
    (hother : IsStableSort order other rows) (horder : IsOrderOn order rows) : sorted = other := by
  refine eq_of_filter_tied_eq (horder.subset h.perm.subset) (h.perm.trans hother.perm.symm)
    h.ascending hother.ascending fun row hrow => ?_
  have hrow : row ∈ rows := h.perm.subset hrow
  rw [h.filter_tied horder hrow, hother.filter_tied horder hrow]

end EntityService.Store
