import Mathlib.Algebra.GroupWithZero.Nat
import Mathlib.Data.List.Basic
import Mathlib.Data.List.Infix
import Mathlib.Tactic.Common

/-! # FIFO Links

    A link carries items from one producer side to one consumer side, in
    order and without loss until it is dropped.  Dropping a link may discard
    any tail of what is in flight, and nothing can be pushed afterwards.

    Next to the items in flight the link keeps two histories: everything that
    was ever pushed and everything that was ever taken out.  The two laws
    every link obeys are fields of the structure, so each operation proves
    them once and a state that breaks them cannot be built:

    * what was taken, followed by what is in flight, is a prefix of what was
      pushed;
    * the two are equal as long as the link was not dropped.
-/

namespace Fifo

/-- Whether a link still accepts items. -/
inductive Status where
  /-- The producer side is open. -/
  | live
  /-- The producer side ended the link: nothing follows what is in flight. -/
  | ended
  /-- The link was dropped. -/
  | failed
  deriving DecidableEq, Repr

/-- A FIFO link with its history. -/
structure Link (α : Type u) where
  /-- History: the items pushed so far. -/
  sent : List α
  /-- History: the items taken out so far. -/
  taken : List α
  /-- The items in flight, oldest first. -/
  queue : List α
  status : Status
  in_order : taken ++ queue <+: sent
  lossless : status ≠ .failed → taken ++ queue = sent

namespace Link

variable {α : Type u}

/-- A fresh link. -/
def fresh : Link α where
  sent := []
  taken := []
  queue := []
  status := .live
  in_order := List.prefix_rfl
  lossless := fun _ => rfl

/-- Pushes an item; only a live link accepts one. -/
def push (q : Link α) (a : α) : Option (Link α) :=
  if h : q.status = .live then
    some
      { sent := q.sent ++ [a]
        taken := q.taken
        queue := q.queue ++ [a]
        status := q.status
        in_order := by
          rw [← List.append_assoc, q.lossless (by simp [h])]
        lossless := fun hs => by
          rw [← List.append_assoc, q.lossless hs] }
  else none

/-- Takes the oldest item in flight. -/
def pop (q : Link α) : Option (α × Link α) :=
  match h : q.queue with
  | [] => none
  | a :: rest =>
    some (a,
      { sent := q.sent
        taken := q.taken ++ [a]
        queue := rest
        status := q.status
        in_order := by
          have hq := q.in_order
          rw [h] at hq
          simpa using hq
        lossless := fun hs => by
          have hq := q.lossless hs
          rw [h] at hq
          simpa using hq })

/-- Pushes items one by one while fewer than `cap` are in flight. -/
def offer (q : Link α) (cap : Nat) : List α → Option (Link α)
  | [] => some q
  | a :: as =>
    if q.queue.length < cap then (q.push a).bind fun q' => q'.offer cap as else none

/-- The producer side ends a live link. -/
def finish (q : Link α) : Option (Link α) :=
  if h : q.status = .live then
    some
      { q with
        status := .ended
        lossless := fun _ => q.lossless (by simp [h]) }
  else none

/-- Drops the link: at most the first `k` items in flight survive. -/
def cut (q : Link α) (k : Nat) : Link α where
  sent := q.sent
  taken := q.taken
  queue := q.queue.take k
  status := .failed
  in_order := by
    have htake : q.taken ++ q.queue.take k <+: q.taken ++ q.queue :=
      List.prefix_append_right_inj _ |>.mpr (List.take_prefix _ _)
    exact htake.trans q.in_order
  lossless := fun h => absurd rfl h

/-! ## What each operation does -/

@[simp] theorem fresh_sent : (fresh : Link α).sent = [] := rfl

@[simp] theorem fresh_taken : (fresh : Link α).taken = [] := rfl

@[simp] theorem fresh_queue : (fresh : Link α).queue = [] := rfl

@[simp] theorem fresh_status : (fresh : Link α).status = .live := rfl

theorem push_spec {q q' : Link α} {a : α} (h : q.push a = some q') :
    q.status = .live ∧ q'.status = .live ∧ q'.sent = q.sent ++ [a] ∧
      q'.taken = q.taken ∧ q'.queue = q.queue ++ [a] := by
  unfold push at h
  split at h
  · next hlive =>
    obtain rfl := Option.some.inj h
    exact ⟨hlive, hlive, rfl, rfl, rfl⟩
  · cases h

theorem push_isSome {q : Link α} (h : q.status = .live) (a : α) :
    ∃ q', q.push a = some q' := by
  unfold push
  rw [dif_pos h]
  exact ⟨_, rfl⟩

theorem offer_spec {q q' : Link α} {cap : Nat} {as : List α} (h : q.offer cap as = some q') :
    q'.status = q.status ∧ q'.sent = q.sent ++ as ∧ q'.taken = q.taken ∧
      q'.queue = q.queue ++ as := by
  induction as generalizing q with
  | nil =>
    obtain rfl := Option.some.inj h
    simp
  | cons a as ih =>
    simp only [offer, Option.ite_none_right_eq_some, Option.bind_eq_some_iff] at h
    obtain ⟨-, q₁, hpush, hrest⟩ := h
    obtain ⟨hlive, hlive₁, hsent, htaken, hqueue⟩ := push_spec hpush
    obtain ⟨hstatus, hsent', htaken', hqueue'⟩ := ih hrest
    refine ⟨?_, ?_, ?_, ?_⟩
    · rw [hstatus, hlive, hlive₁]
    · rw [hsent', hsent, List.append_assoc]
      rfl
    · rw [htaken', htaken]
    · rw [hqueue', hqueue, List.append_assoc]
      rfl

/-- Only a live link takes something. -/
theorem offer_live {q q' : Link α} {cap : Nat} {as : List α} (h : q.offer cap as = some q')
    (hne : as ≠ []) : q.status = .live := by
  cases as with
  | nil => exact absurd rfl hne
  | cons a as =>
    simp only [offer, Option.ite_none_right_eq_some, Option.bind_eq_some_iff] at h
    obtain ⟨-, q₁, hpush, -⟩ := h
    exact (push_spec hpush).1

@[simp] theorem offer_nil (q : Link α) (cap : Nat) : q.offer cap [] = some q := rfl

theorem offer_isSome {q : Link α} {cap : Nat} (hlive : q.status = .live)
    (hroom : q.queue.length < cap) (a : α) : ∃ q', q.offer cap [a] = some q' := by
  obtain ⟨q', hpush⟩ := push_isSome hlive a
  refine ⟨q', ?_⟩
  rw [offer, if_pos hroom, hpush]
  rfl

theorem pop_spec {q q' : Link α} {a : α} (h : q.pop = some (a, q')) :
    q.queue = a :: q'.queue ∧ q'.status = q.status ∧ q'.sent = q.sent ∧
      q'.taken = q.taken ++ [a] := by
  unfold pop at h
  split at h
  · cases h
  · next hq =>
    obtain ⟨rfl, rfl⟩ := Prod.mk.inj (Option.some.inj h)
    exact ⟨hq, rfl, rfl, rfl⟩

theorem pop_isSome {q : Link α} {a : α} {rest : List α} (h : q.queue = a :: rest) :
    ∃ q', q.pop = some (a, q') := by
  unfold pop
  split
  · next hq => rw [hq] at h; cases h
  · next b rest' hq =>
    rw [hq] at h
    obtain ⟨rfl, rfl⟩ := List.cons.inj h
    exact ⟨_, rfl⟩

theorem finish_spec {q q' : Link α} (h : q.finish = some q') :
    q.status = .live ∧ q'.status = .ended ∧ q'.sent = q.sent ∧
      q'.taken = q.taken ∧ q'.queue = q.queue := by
  unfold finish at h
  split at h
  · next hlive =>
    obtain rfl := Option.some.inj h
    exact ⟨hlive, rfl, rfl, rfl, rfl⟩
  · cases h

theorem finish_isSome {q : Link α} (h : q.status = .live) : ∃ q', q.finish = some q' := by
  unfold finish
  rw [dif_pos h]
  exact ⟨_, rfl⟩

@[simp] theorem cut_sent (q : Link α) (k : Nat) : (q.cut k).sent = q.sent := rfl

@[simp] theorem cut_taken (q : Link α) (k : Nat) : (q.cut k).taken = q.taken := rfl

@[simp] theorem cut_queue (q : Link α) (k : Nat) : (q.cut k).queue = q.queue.take k := rfl

@[simp] theorem cut_status (q : Link α) (k : Nat) : (q.cut k).status = .failed := rfl

/-! ## Order and loss -/

/-- What came out is a prefix of what went in. -/
theorem taken_prefix_sent (q : Link α) : q.taken <+: q.sent :=
  (List.prefix_append _ _).trans q.in_order

/-- An undropped link that is empty has delivered everything. -/
theorem taken_eq_sent {q : Link α} (hs : q.status ≠ .failed) (hq : q.queue = []) :
    q.taken = q.sent := by
  have h := q.lossless hs
  rwa [hq, List.append_nil] at h

end Link

/-- **Two links in series**: when the second is fed exactly by what leaves the
    first, what leaves the second is a prefix of what entered the first. -/
theorem series_prefix {α : Type u} {a b : Link α} (h : b.sent = a.taken) :
    b.taken <+: a.sent :=
  (h ▸ b.taken_prefix_sent).trans a.taken_prefix_sent

/-- Two undropped, drained links in series have delivered everything. -/
theorem series_drained {α : Type u} {a b : Link α} (h : b.sent = a.taken)
    (ha : a.status ≠ .failed) (hb : b.status ≠ .failed)
    (hqa : a.queue = []) (hqb : b.queue = []) : b.taken = a.sent := by
  rw [Link.taken_eq_sent hb hqb, h, Link.taken_eq_sent ha hqa]

/-! ## A bounded link

    A link that is fed through `offer` alone is never more than `cap` items
    ahead of what is taken out of it, whatever happens to it.
-/

/-- What was pushed is at most `cap` items more than what was taken. -/
def Link.Within {α : Type u} (cap : Nat) (q : Link α) : Prop :=
  q.sent.length ≤ q.taken.length + cap

namespace Link

variable {α : Type u} {q q' : Link α} {cap : Nat}

theorem Within.fresh : Within cap (fresh : Link α) :=
  Nat.zero_le _

/-- The items in flight are among those the taker is behind. -/
theorem Within.queue_le (h : Within cap q) : q.queue.length ≤ cap := by
  have hlen := q.in_order.length_le
  rw [List.length_append] at hlen
  unfold Within at h
  omega

theorem Within.offer {as : List α} (h : Within cap q) (hoffer : q.offer cap as = some q') :
    Within cap q' := by
  induction as generalizing q with
  | nil =>
    obtain rfl := Option.some.inj hoffer
    exact h
  | cons a as ih =>
    simp only [Link.offer, Option.ite_none_right_eq_some, Option.bind_eq_some_iff] at hoffer
    obtain ⟨hroom, q₁, hpush, hrest⟩ := hoffer
    refine ih ?_ hrest
    obtain ⟨hlive, -, hsent, htaken, -⟩ := push_spec hpush
    -- a live link has lost nothing, so what is in flight is all the taker is behind
    have hlossless := congrArg List.length (q.lossless (by simp [hlive]))
    rw [List.length_append] at hlossless
    unfold Within
    rw [hsent, htaken, List.length_append, List.length_singleton]
    omega

theorem Within.pop {a : α} (h : Within cap q) (hpop : q.pop = some (a, q')) : Within cap q' := by
  obtain ⟨-, -, hsent, htaken⟩ := pop_spec hpop
  unfold Within at *
  rw [hsent, htaken, List.length_append]
  omega

theorem Within.cut (h : Within cap q) (k : Nat) : Within cap (q.cut k) :=
  h

end Link

/-! ## Work left

    For termination arguments: every item in flight counts for as much as is
    still to be done with it, and a link that is not dropped yet can still be
    ended or dropped.
-/

/-- The sum of the sizes of some items. -/
def load {α : Type u} (size : α → Nat) (items : List α) : Nat :=
  (items.map size).sum

section load
variable {α : Type u} {size : α → Nat}

@[simp] theorem load_nil : load size [] = 0 := rfl

@[simp] theorem load_cons (a : α) (as : List α) :
    load size (a :: as) = size a + load size as := rfl

@[simp] theorem load_append (xs ys : List α) :
    load size (xs ++ ys) = load size xs + load size ys := by
  simp [load]

theorem load_take_le (items : List α) (k : Nat) :
    load size (items.take k) ≤ load size items := by
  have hsplit : load size (items.take k ++ items.drop k) = load size items := by
    rw [List.take_append_drop]
  rw [load_append] at hsplit
  omega

theorem load_le {items : List α} {m : Nat} (hsize : ∀ a ∈ items, size a ≤ m) :
    load size items ≤ items.length * m := by
  induction items with
  | nil => exact Nat.zero_le _
  | cons a as ih =>
    have hfirst := hsize a List.mem_cons_self
    have hrest := ih fun b hb => hsize b (List.mem_cons_of_mem a hb)
    rw [load_cons, List.length_cons, Nat.succ_mul]
    omega

/-- A list that is at most `cap` items longer, all of size at most `m`. -/
theorem load_le_of_prefix (size : α → Nat) {xs ys : List α} {cap m : Nat} (hpre : xs <+: ys)
    (hlen : ys.length ≤ xs.length + cap) (hsize : ∀ y ∈ ys, size y ≤ m) :
    load size ys ≤ load size xs + cap * m := by
  obtain ⟨rest, rfl⟩ := hpre
  have hrest := load_le fun y hy => hsize y (List.mem_append_right xs hy)
  have hcap : rest.length * m ≤ cap * m := by
    refine Nat.mul_le_mul_right m ?_
    rw [List.length_append] at hlen
    omega
  rw [load_append]
  omega

end load

/-- How often a link can still be ended or dropped. -/
def Status.weight : Status → Nat
  | .live => 2
  | .ended => 1
  | .failed => 0

namespace Link

variable {α : Type u}

/-- The work left in a link. -/
def weight (size : α → Nat) (q : Link α) : Nat :=
  load size q.queue + q.status.weight

theorem weight_offer (size : α → Nat) {q q' : Link α} {cap : Nat} {as : List α} (h : q.offer cap as = some q') :
    q'.weight size = q.weight size + load size as := by
  obtain ⟨hstatus, -, -, hqueue⟩ := offer_spec h
  rw [weight, weight, hstatus, hqueue, load_append]
  omega

theorem weight_push (size : α → Nat) {q q' : Link α} {a : α} (h : q.push a = some q') :
    q'.weight size = q.weight size + size a := by
  obtain ⟨hlive, hlive', -, -, hqueue⟩ := push_spec h
  rw [weight, weight, hlive, hlive', hqueue, load_append, load_cons, load_nil]
  omega

theorem weight_pop (size : α → Nat) {q q' : Link α} {a : α} (h : q.pop = some (a, q')) :
    q.weight size = q'.weight size + size a := by
  obtain ⟨hqueue, hstatus, -, -⟩ := pop_spec h
  rw [weight, weight, hstatus, hqueue, load_cons]
  omega

theorem weight_finish (size : α → Nat) {q q' : Link α} (h : q.finish = some q') :
    q'.weight size < q.weight size := by
  obtain ⟨hlive, hended, -, -, hqueue⟩ := finish_spec h
  rw [weight, weight, hlive, hended, hqueue]
  simp [Status.weight]

theorem weight_cut (size : α → Nat) {q : Link α} (h : q.status ≠ .failed) (k : Nat) :
    (q.cut k).weight size < q.weight size := by
  have htake : load size (q.queue.take k) ≤ load size q.queue := load_take_le _ _
  have hstatus : 0 < q.status.weight := by
    cases hs : q.status with
    | failed => exact absurd hs h
    | live | ended => simp [Status.weight]
  show load size (q.queue.take k) + 0 < load size q.queue + q.status.weight
  omega

end Link

end Fifo
