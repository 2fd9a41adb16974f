import Mathlib.Data.List.Nodup
import Mathlib.Logic.Function.Basic

/-!
# Links

A partial function `next` links its arguments; `Links.Path next a l` says that the links from `a` on
visit the list `l` and end there. `Links.lay` lays links along a list, each over the one that the
element had before: an element that occurs twice keeps the link of its last occurrence. The links laid
along a list end exactly when its last element does not occur before (`Links.exists_path_iff`).
-/

namespace Links

variable {α : Type*} {next : α → Option α} {a b : α} {l : List α}

inductive Path (next : α → Option α) : α → List α → Prop
  | last {a : α} (h : next a = none) : Path next a [a]
  | cons {a b : α} {l : List α} (h : next a = some b) (hp : Path next b l) : Path next a (a :: l)

theorem Path.unique {l' : List α} (h : Path next a l) (h' : Path next a l') : l = l' := by
  induction h generalizing l' with
  | last h =>
    cases h' with
    | last => rfl
    | cons hs => simp [h] at hs
  | cons h _ ih =>
    cases h' with
    | last hn => simp [h] at hn
    | cons hs hp =>
      obtain rfl : _ = _ := Option.some.inj (h.symm.trans hs)
      rw [ih hp]

/-- What is visited later has a path of its own. -/
theorem Path.of_mem (h : Path next a l) (hb : b ∈ l) :
    ∃ l' : List α, l'.length ≤ l.length ∧ Path next b l' := by
  induction h with
  | last h =>
    obtain rfl := List.mem_singleton.mp hb
    exact ⟨_, Nat.le_refl _, .last h⟩
  | cons h hp ih =>
    rcases List.mem_cons.mp hb with rfl | hb
    · exact ⟨_, Nat.le_refl _, .cons h hp⟩
    · obtain ⟨l', hl', hp'⟩ := ih hb
      exact ⟨l', Nat.le_succ_of_le hl', hp'⟩

/-- A path that ends does not come back. -/
theorem Path.nodup (h : Path next a l) : l.Nodup := by
  induction h with
  | last => exact List.nodup_singleton _
  | @cons a b l h hp ih =>
    refine List.nodup_cons.mpr ⟨fun ha => ?_, ih⟩
    obtain ⟨l', hl', hp'⟩ := hp.of_mem ha
    have := congrArg List.length (hp'.unique (.cons h hp))
    simp only [List.length_cons] at this
    omega

theorem Path.head (h : Path next a l) : l.head? = some a := by
  cases h <;> rfl

/-- A path does not end among elements that all have links to one another. -/
theorem not_path_of_forall {P : α → Prop} (hP : ∀ x, P x → ∃ y, P y ∧ next x = some y) (ha : P a) :
    ¬ Path next a l := by
  intro h
  induction h with
  | last h =>
    obtain ⟨y, -, hy⟩ := hP _ ha
    simp [h] at hy
  | cons h _ ih =>
    obtain ⟨y, hy, hxy⟩ := hP _ ha
    obtain rfl := Option.some.inj (h.symm.trans hxy)
    exact ih hy

/-- What follows an element of a path. -/
theorem Path.next_eq {pre post : List α} {x : α} (h : Path next a l) (hl : l = pre ++ x :: post) :
    next x = post.head? := by
  induction h generalizing pre with
  | last h =>
    cases pre with
    | nil =>
      obtain ⟨rfl, rfl⟩ := List.cons.inj hl
      exact h
    | cons y pre => simp at hl
  | cons h hp ih =>
    cases pre with
    | nil =>
      obtain ⟨rfl, rfl⟩ := List.cons.inj hl
      rw [h, hp.head]
    | cons y pre => exact ih (List.cons.inj hl).2

variable [DecidableEq α]

/-- Links along a list, over those that are there. -/
def lay (next : α → Option α) : List α → α → Option α
  | a :: b :: l => lay (Function.update next a (some b)) (b :: l)
  | _ => next

theorem lay_of_notMem {x : α} (h : x ∉ l.dropLast) : lay next l x = next x := by
  induction l generalizing next with
  | nil => rfl
  | cons a l ih =>
    cases l with
    | nil => rfl
    | cons b l =>
      simp only [List.dropLast_cons_cons, List.mem_cons, not_or] at h
      rw [lay, ih h.2, Function.update_of_ne h.1]

theorem lay_append_cons_cons (pre : List α) {post : List α} {x y : α} (h : x ∉ (y :: post).dropLast) :
    lay next (pre ++ x :: y :: post) x = some y := by
  induction pre generalizing next with
  | nil => rw [List.nil_append, lay, lay_of_notMem h, Function.update_self]
  | cons a pre ih =>
    cases pre with
    | nil => exact ih
    | cons b pre => exact ih

/-- Where an element occurs for the last time. -/
theorem exists_last_occurrence {x : α} (h : x ∈ l) : ∃ pre post, l = pre ++ x :: post ∧ x ∉ post := by
  induction l with
  | nil => cases h
  | cons a l ih =>
    by_cases hx : x ∈ l
    · obtain ⟨pre, post, rfl, hpost⟩ := ih hx
      exact ⟨a :: pre, post, rfl, hpost⟩
    · obtain rfl : x = a := by simpa [hx] using h
      exact ⟨[], l, rfl, hx⟩

theorem lay_isSome {x : α} (h : x ∈ l.dropLast) (next : α → Option α) :
    ∃ y ∈ l, lay next l x = some y := by
  induction l generalizing next with
  | nil => cases h
  | cons a l ih =>
    cases l with
    | nil => cases h
    | cons b l =>
      by_cases hx : x ∈ (b :: l).dropLast
      · obtain ⟨y, hy, hxy⟩ := ih hx (Function.update next a (some b))
        exact ⟨y, List.mem_cons_of_mem _ hy, hxy⟩
      · obtain rfl : x = a := by simpa [hx] using h
        exact ⟨b, by simp, lay_append_cons_cons [] hx⟩

/-- The links from any place of the list end, if its last element has no link. -/
theorem exists_path_of_suffix {x : α} (hlast : ∀ z, l.getLast? = some z → lay next l z = none)
    (pre post : List α) (h : l = pre ++ x :: post) :
    ∃ p, Path (lay next l) x p ∧ p.Sublist (x :: post) := by
  obtain ⟨before, after, hsplit, hafter⟩ := exists_last_occurrence (l := x :: post) List.mem_cons_self
  have hl : l = pre ++ before ++ x :: after := by rw [h, hsplit, List.append_assoc]
  have hsub : (x :: after).Sublist (x :: post) := by
    rw [hsplit]
    exact List.sublist_append_right _ _
  cases hc : after with
  | nil =>
    rw [hc] at hl hsub
    exact ⟨[x], .last (hlast x (by simp [hl])), hsub⟩
  | cons y after' =>
    rw [hc] at hl hsub hafter
    have hnext : lay next l x = some y := by
      rw [hl]
      exact lay_append_cons_cons _ fun hm => hafter (List.dropLast_subset _ hm)
    have hlt : after'.length < post.length := Nat.lt_of_succ_le (by simpa using hsub.length_le)
    obtain ⟨p, hp, hps⟩ := exists_path_of_suffix (x := y) hlast (pre ++ before ++ [x]) after' (by simp [hl])
    exact ⟨x :: p, .cons hnext hp, (hps.cons_cons x).trans hsub⟩
termination_by post.length

/-- The last element has no link if it does not occur before. -/
theorem lay_last_eq_none {pre : List α} {z : α} (hl : l = pre ++ [z]) (hz : z ∉ pre) (y : α)
    (hy : l.getLast? = some y) : lay (fun _ => none) l y = none := by
  obtain rfl : z = y := by simpa [hl] using hy
  exact lay_of_notMem (by rwa [hl, List.dropLast_concat])

/-- **Links laid along a list** end if and only if its last element does not occur before. -/
theorem exists_path_iff {x z : α} {pre : List α} (hl : l = pre ++ [z]) (hx : l.head? = some x) :
    (∃ p, Path (lay (fun _ => none) l) x p) ↔ z ∉ pre := by
  have hdrop : l.dropLast = pre := by rw [hl, List.dropLast_concat]
  have hmem : x ∈ l := List.mem_of_mem_head? hx
  constructor
  · rintro ⟨p, hp⟩ hz
    refine not_path_of_forall (P := (· ∈ l)) (fun y hy => ?_) hmem hp
    have hy' : y ∈ l.dropLast := by
      rw [hl, List.mem_append, List.mem_singleton] at hy
      rcases hy with hy | rfl <;> rwa [hdrop]
    exact lay_isSome hy' _
  · intro hz
    obtain ⟨post, hpost⟩ := List.head?_eq_some_iff.mp hx
    obtain ⟨p, hp, -⟩ := exists_path_of_suffix (lay_last_eq_none hl hz) [] post hpost
    exact ⟨p, hp⟩

/-- The path is part of the list. -/
theorem Path.sublist {x : α} {p : List α} (hx : l.head? = some x) (h : Path (lay (fun _ => none) l) x p) :
    p.Sublist l := by
  obtain ⟨post, rfl⟩ := List.head?_eq_some_iff.mp hx
  obtain ⟨z, hz⟩ : ∃ z, (x :: post).getLast? = some z :=
    ⟨_, List.getLast?_eq_some_getLast (List.cons_ne_nil x post)⟩
  obtain ⟨pre, hpre⟩ := List.getLast?_eq_some_iff.mp hz
  have hnot : z ∉ pre := (exists_path_iff hpre hx).mp ⟨p, h⟩
  obtain ⟨p', hp', hs⟩ := exists_path_of_suffix (lay_last_eq_none hpre hnot) [] post rfl
  rwa [h.unique hp']

/-- Links along a list without repetitions lead through the whole of it. -/
theorem path_of_nodup {x : α} (hl : l.Nodup) (hx : l.head? = some x) : Path (lay (fun _ => none) l) x l := by
  have hsuffix (pre : List α) (post : List α) (x : α) (h : l = pre ++ x :: post) :
      Path (lay (fun _ => none) l) x (x :: post) := by
    induction post generalizing pre x with
    | nil =>
      refine .last (lay_of_notMem ?_)
      rw [h, List.dropLast_concat]
      rw [h] at hl
      exact fun hm => List.disjoint_of_nodup_append hl hm List.mem_cons_self
    | cons y post ih =>
      have hy : l = (pre ++ [x]) ++ y :: post := by simp [h]
      refine .cons ?_ (ih _ _ hy)
      rw [h] at hl ⊢
      exact lay_append_cons_cons _ fun hm =>
        (List.nodup_cons.mp (List.nodup_append.mp hl).2.1).1 (List.dropLast_subset _ hm)
  obtain ⟨post, rfl⟩ := List.head?_eq_some_iff.mp hx
  exact hsuffix [] post x rfl

end Links
