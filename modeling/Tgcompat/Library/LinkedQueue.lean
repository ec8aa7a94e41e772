import Mathlib.Data.List.Induction
import Mathlib.Tactic

/-!
# Queues as linked nodes

A first-in first-out queue kept as a singly linked list with a head and a tail pointer, as C code
writes it: the nodes are owned by somebody else and carry the `next` pointers. Nodes are named by
`α` and a null pointer is `none`. A loop that follows the pointers need not end on an arbitrary
heap, so traversals take fuel and return `none` when it runs out. `Holds q l` says that the
pointers represent the list `l`; each operation is described by its effect on that list.
-/

variable {α β : Type*}

/-- Head, tail, and the `next` pointer of every node. -/
structure LinkedQueue (α : Type*) where
  head : Option α
  tail : Option α
  next : α → Option α

namespace LinkedQueue

/-- No node is linked. -/
def empty : LinkedQueue α where
  head := none
  tail := none
  next := fun _ => none

/-- Visit the nodes from a pointer on until `f` gives an answer. -/
def walk (next : α → Option α) (f : α → Option β) : ℕ → Option α → Option (Option β)
  | _, none => some none
  | 0, some _ => none
  | fuel + 1, some a =>
    match f a with
    | some b => some (some b)
    | none => walk next f fuel (next a)

section Operations

variable [DecidableEq α]

/-- Link a node behind the tail. -/
def enqueue (q : LinkedQueue α) (a : α) : LinkedQueue α :=
  let next := Function.update q.next a none
  match q.tail with
  | none => { head := some a, tail := some a, next := next }
  | some t => { head := q.head, tail := some a, next := Function.update next t (some a) }

/-- Look for a node, keeping the node before it: the last values of the two cursors. -/
def search (next : α → Option α) (target : α) :
    ℕ → Option α → Option α → Option (Option α × Option α)
  | _, previous, none => some (previous, none)
  | 0, _, some _ => none
  | fuel + 1, previous, some current =>
    if current = target then some (previous, some current)
    else search next target fuel (some current) (next current)

/-- Unlink a node wherever it is; nothing happens when it is not linked. -/
def remove (q : LinkedQueue α) (fuel : ℕ) (target : α) : Option (LinkedQueue α) :=
  match search q.next target fuel none q.head with
  | none => none
  | some (_, none) => some q
  | some (previous, some current) =>
    let unlinked : LinkedQueue α := match previous with
      | none => { q with head := q.next current }
      | some p => { q with next := Function.update q.next p (q.next current) }
    some (if q.tail = some current then { unlinked with tail := previous } else unlinked)

end Operations

/-! ### Segments -/

/-- Following `next` from `p` visits exactly the nodes of the list and arrives at `r`. -/
def Seg (next : α → Option α) : Option α → List α → Option α → Prop
  | p, [], r => p = r
  | p, a :: l, r => p = some a ∧ Seg next (next a) l r

variable {next : α → Option α} {p r : Option α} {l : List α}

lemma seg_append {l' : List α} :
    Seg next p (l ++ l') r ↔ ∃ m, Seg next p l m ∧ Seg next m l' r := by
  induction l generalizing p with
  | nil => simp [Seg]
  | cons a l ih =>
    simp only [List.cons_append, Seg, ih]
    constructor
    · rintro ⟨hp, m, h1, h2⟩
      exact ⟨m, ⟨hp, h1⟩, h2⟩
    · rintro ⟨m, ⟨hp, h1⟩, h2⟩
      exact ⟨hp, m, h1, h2⟩

lemma seg_snoc {a : α} : Seg next p (l ++ [a]) r ↔ Seg next p l (some a) ∧ next a = r := by
  rw [seg_append]
  constructor
  · rintro ⟨m, h1, rfl, h2⟩
    exact ⟨h1, h2⟩
  · rintro ⟨h1, h2⟩
    exact ⟨some a, h1, rfl, h2⟩

/-- A segment only depends on the pointers of its nodes. -/
lemma seg_update [DecidableEq α] {a : α} (ha : a ∉ l) (v : Option α) :
    Seg (Function.update next a v) p l r ↔ Seg next p l r := by
  induction l generalizing p with
  | nil => exact Iff.rfl
  | cons b l ih =>
    rw [List.mem_cons, not_or] at ha
    simp only [Seg, Function.update_of_ne (Ne.symm ha.1), ih ha.2]

/-- A walk over a finite list of nodes ends, and finds what a search of the list finds. -/
theorem walk_eq (f : α → Option β) {fuel : ℕ} (h : Seg next p l none) (hfuel : l.length ≤ fuel) :
    walk next f fuel p = some (l.findSome? f) := by
  induction l generalizing p fuel with
  | nil =>
    cases h
    cases fuel <;> rfl
  | cons a l ih =>
    obtain ⟨rfl, h⟩ := h
    cases fuel with
    | zero => cases hfuel
    | succ fuel =>
      rw [List.length_cons, Nat.add_le_add_iff_right] at hfuel
      rw [walk, List.findSome?_cons]
      cases f a with
      | some b => rfl
      | none => exact ih h hfuel

/-! ### Representation of lists -/

/-- The pointers represent the list `l`. -/
structure Holds (q : LinkedQueue α) (l : List α) : Prop where
  chain : Seg q.next q.head l none
  tail : q.tail = l.getLast?
  nodup : l.Nodup

variable {q : LinkedQueue α}

lemma holds_empty : (empty : LinkedQueue α).Holds [] := ⟨rfl, rfl, List.nodup_nil⟩

/-- The node is the last one exactly when nothing follows it. -/
lemma getLast?_eq_some_iff_nil {target : α} {pre post : List α} (hpost : target ∉ post) :
    (pre ++ target :: post).getLast? = some target ↔ post = [] := by
  constructor
  · intro h
    cases post with
    | nil => rfl
    | cons b post =>
      rw [List.getLast?_append_cons, List.getLast?_cons_cons] at h
      exact absurd (List.mem_of_getLast? h) hpost
  · rintro rfl
    exact List.getLast?_concat

variable [DecidableEq α]

theorem Holds.enqueue {a : α} (h : q.Holds l) (ha : a ∉ l) : (q.enqueue a).Holds (l ++ [a]) := by
  obtain ⟨hchain, htail, hnodup⟩ := h
  have hnodup' : (l ++ [a]).Nodup := by
    rw [List.nodup_append]
    exact ⟨hnodup, List.nodup_singleton a, by
      rintro x hx y hy rfl
      rw [List.mem_singleton] at hy
      exact ha (hy ▸ hx)⟩
  rcases List.eq_nil_or_concat' l with rfl | ⟨l, t, rfl⟩
  · rw [List.getLast?_nil] at htail
    refine ⟨?_, ?_, hnodup'⟩
    · simp [LinkedQueue.enqueue, htail, Seg]
    · simp [LinkedQueue.enqueue, htail]
  · rw [List.getLast?_concat] at htail
    simp only [List.mem_append, List.mem_singleton, not_or] at ha
    have htl : t ∉ l := by
      intro hmem
      rw [List.nodup_append] at hnodup
      exact hnodup.2.2 t hmem t (List.mem_singleton_self t) rfl
    refine ⟨?_, ?_, hnodup'⟩
    · simp only [LinkedQueue.enqueue, htail]
      rw [seg_snoc] at hchain
      rw [seg_snoc, seg_snoc]
      refine ⟨⟨?_, ?_⟩, ?_⟩
      · rw [seg_update htl, seg_update ha.1]
        exact hchain.1
      · rw [Function.update_self]
      · rw [Function.update_of_ne ha.2, Function.update_self]
    · simp [LinkedQueue.enqueue, htail]

/-- The search stops at the node, with the node before it at hand. -/
lemma search_eq {target : α} {pre post : List α} {fuel : ℕ} (previous : Option α)
    (h : Seg next p (pre ++ target :: post) none) (hpre : target ∉ pre)
    (hfuel : (pre ++ target :: post).length ≤ fuel) :
    search next target fuel previous p = some ((pre.getLast?).or previous, some target) := by
  induction pre generalizing p fuel previous with
  | nil =>
    obtain ⟨rfl, -⟩ := h
    cases fuel with
    | zero => cases hfuel
    | succ fuel => simp [search]
  | cons a pre ih =>
    obtain ⟨rfl, h⟩ := h
    rw [List.mem_cons, not_or] at hpre
    cases fuel with
    | zero => cases hfuel
    | succ fuel =>
      rw [List.cons_append, List.length_cons, Nat.add_le_add_iff_right] at hfuel
      rw [search, if_neg (Ne.symm hpre.1), ih (some a) h hpre.2 hfuel]
      cases pre with
      | nil => rfl
      | cons b pre => simp [List.getLast?_cons]

/-- Unlinking a node of the queue deletes it from the list. -/
theorem Holds.remove {target : α} {fuel : ℕ} (h : q.Holds l) (hmem : target ∈ l)
    (hfuel : l.length ≤ fuel) :
    ∃ q', q.remove fuel target = some q' ∧ q'.Holds (l.erase target) := by
  obtain ⟨hchain, htail, hnodup⟩ := h
  obtain ⟨pre, post, rfl⟩ := List.append_of_mem hmem
  have hpre : target ∉ pre := by
    intro hin
    rw [List.nodup_append] at hnodup
    exact hnodup.2.2 target hin target (by simp) rfl
  have hpost : target ∉ post := by
    rw [List.nodup_append, List.nodup_cons] at hnodup
    exact hnodup.2.1.1
  have hnodup' : (pre ++ post).Nodup := by
    refine hnodup.sublist ?_
    exact (List.sublist_cons_self target post).append_left pre
  have hsearch := search_eq none hchain hpre hfuel
  have hlast : q.tail = some target ↔ post = [] := by
    rw [htail]
    exact getLast?_eq_some_iff_nil hpost
  -- the tail moves back exactly when the node was the last one
  have htail' : (if q.tail = some target then pre.getLast? else q.tail) =
      (pre ++ post).getLast? := by
    by_cases hnil : post = []
    · rw [if_pos (hlast.mpr hnil), hnil, List.append_nil]
    · rw [if_neg (fun h => hnil (hlast.mp h)), htail]
      obtain ⟨b, post, rfl⟩ := List.exists_cons_of_ne_nil hnil
      simp
  obtain ⟨m, hbefore, rfl, hafter⟩ := seg_append.mp hchain
  rw [List.erase_append_right _ hpre, List.erase_cons_head]
  simp only [LinkedQueue.remove, hsearch, Option.or_none]
  refine ⟨_, rfl, ?_, ?_, hnodup'⟩
  · rcases List.eq_nil_or_concat' pre with rfl | ⟨pre, p, rfl⟩
    · simp only [List.getLast?_nil, List.nil_append]
      split_ifs <;> exact hafter
    · rw [seg_snoc] at hbefore
      have hp : p ∉ pre ++ post := by
        rw [List.append_assoc, List.singleton_append, List.perm_middle.nodup_iff] at hnodup'
        exact (List.nodup_cons.mp hnodup').1
      simp only [List.getLast?_concat]
      have hseg : Seg (Function.update q.next p (q.next target)) q.head (pre ++ [p] ++ post)
          none := by
        rw [List.mem_append, not_or] at hp
        rw [seg_append]
        refine ⟨q.next target, ?_, ?_⟩
        · rw [seg_snoc, seg_update hp.1, Function.update_self]
          exact ⟨hbefore.1, rfl⟩
        · rw [seg_update hp.2]
          exact hafter
      split_ifs <;> exact hseg
  · rw [← htail']
    cases pre.getLast? with
    | none => split_ifs <;> rfl
    | some p => split_ifs <;> rfl

end LinkedQueue
