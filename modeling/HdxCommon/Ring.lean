/-
Circular doubly linked lists in a heap.

A heap has nodes with two links and a pointer to data, and blocks of data; an
access to memory that is not live is a fault.

* `Heap.Ring` — the nodes from a head on are linked in both directions and lead
  back to the head;
* `Ring.insert`, `Ring.delNode` — putting a node anywhere, and taking out any
  node, meet no fault and give the ring of the longer or shorter list;
* `Ring.read` — following either link reads the data of the list.
-/
import Mathlib.Tactic

namespace CircularList

/-- An access to memory that is not live, or a second `free`. -/
inductive Fault where
  | useAfterFree
  | doubleFree
  deriving DecidableEq, Repr

/-- A node of a list. -/
structure Node where
  next : ℕ
  prev : ℕ
  data : Option ℕ
  deriving DecidableEq, Repr

/-- A pointer, to a node or to a block of data. -/
inductive Ptr where
  | node (a : ℕ)
  | block (d : ℕ)
  deriving DecidableEq, Repr

/-- The live nodes and blocks, and what has been freed so far. -/
structure Heap where
  node : ℕ → Option Node
  block : ℕ → Bool
  freed : List Ptr

namespace Heap

def load (h : Heap) (a : ℕ) : Except Fault Node :=
  match h.node a with
  | none => .error .useAfterFree
  | some n => .ok n

def modify (h : Heap) (a : ℕ) (f : Node → Node) : Except Fault Heap :=
  match h.node a with
  | none => .error .useAfterFree
  | some n => .ok { h with node := Function.update h.node a (some (f n)) }

def setNext (h : Heap) (a b : ℕ) : Except Fault Heap := h.modify a fun n => { n with next := b }

def setPrev (h : Heap) (a b : ℕ) : Except Fault Heap := h.modify a fun n => { n with prev := b }

def freeNode (h : Heap) (a : ℕ) : Except Fault Heap :=
  match h.node a with
  | none => .error .doubleFree
  | some _ => .ok { h with node := Function.update h.node a none, freed := h.freed ++ [.node a] }

def freeBlock (h : Heap) (d : ℕ) : Except Fault Heap :=
  if h.block d then
    .ok { h with block := Function.update h.block d false, freed := h.freed ++ [.block d] }
  else .error .doubleFree

/-- Make a node linked to itself. -/
def initNode (h : Heap) (a : ℕ) : Except Fault Heap := do
  let h ← h.setNext a a
  h.setPrev a a

/-- Append a node to the ring of `head`. -/
def addTailNode (h : Heap) (item head : ℕ) : Except Fault Heap := do
  let n ← h.load head
  let h ← h.setPrev head item
  let h ← h.setNext item head
  let h ← h.setPrev item n.prev
  h.setNext n.prev item

/-- Take a node out of its ring; it is linked to itself then. -/
def delNode (h : Heap) (a : ℕ) : Except Fault Heap := do
  let n ← h.load a
  let h ← h.setPrev n.next (← h.load a).prev
  let h ← h.setNext n.prev (← h.load a).next
  let h ← h.setNext a a
  h.setPrev a a

/-! ### Links -/

/-- The links and the data of a live node. -/
def next (h : Heap) (a : ℕ) : Option ℕ := (h.node a).map Node.next

def prev (h : Heap) (a : ℕ) : Option ℕ := (h.node a).map Node.prev

def data (h : Heap) (a : ℕ) : Option (Option ℕ) := (h.node a).map Node.data

/-- The heaps have the same data, blocks and history. -/
structure SameData (h h' : Heap) : Prop where
  data : h'.data = h.data
  block : h'.block = h.block
  freed : h'.freed = h.freed

theorem SameData.trans {h h' h'' : Heap} (h₁ : h.SameData h') (h₂ : h'.SameData h'') :
    h.SameData h'' :=
  ⟨h₂.data.trans h₁.data, h₂.block.trans h₁.block, h₂.freed.trans h₁.freed⟩

variable {h h' : Heap} {a b p : ℕ}

theorem isSome_next : (h.next a).isSome = (h.node a).isSome := Option.isSome_map

theorem isSome_prev : (h.prev a).isSome = (h.node a).isSome := Option.isSome_map

theorem isSome_data : (h.data a).isSome = (h.node a).isSome := Option.isSome_map

theorem setNext_spec (hlive : (h.node a).isSome) (b : ℕ) :
    ∃ h', h.setNext a b = .ok h' ∧ h'.next = Function.update h.next a (some b) ∧
      h'.prev = h.prev ∧ h.SameData h' := by
  obtain ⟨n, hn⟩ := Option.isSome_iff_exists.mp hlive
  refine ⟨{ h with node := Function.update h.node a (some { n with next := b }) }, ?_, ?_, ?_,
    ?_, rfl, rfl⟩
  · simp [setNext, modify, hn]
  all_goals
    funext x
    by_cases hx : x = a
    · subst hx
      simp [next, prev, data, hn]
    · simp [next, prev, data, hx]

theorem setPrev_spec (hlive : (h.node a).isSome) (b : ℕ) :
    ∃ h', h.setPrev a b = .ok h' ∧ h'.prev = Function.update h.prev a (some b) ∧
      h'.next = h.next ∧ h.SameData h' := by
  obtain ⟨n, hn⟩ := Option.isSome_iff_exists.mp hlive
  refine ⟨{ h with node := Function.update h.node a (some { n with prev := b }) }, ?_, ?_, ?_,
    ?_, rfl, rfl⟩
  · simp [setPrev, modify, hn]
  all_goals
    funext x
    by_cases hx : x = a
    · subst hx
      simp [next, prev, data, hn]
    · simp [next, prev, data, hx]

theorem SameData.isSome (hsame : h.SameData h') (a : ℕ) :
    (h'.node a).isSome = (h.node a).isSome := by
  rw [← isSome_data, ← isSome_data, hsame.data]

theorem load_of_node {n : Node} (hn : h.node a = some n) : h.load a = .ok n := by
  simp [load, hn]

theorem load_of_none (hn : h.node a = none) : h.load a = .error .useAfterFree := by
  simp [load, hn]

theorem freeNode_of_node {n : Node} (hn : h.node a = some n) :
    h.freeNode a =
      .ok { h with node := Function.update h.node a none, freed := h.freed ++ [.node a] } := by
  simp [freeNode, hn]

theorem load_of_links {x y : ℕ} (hnext : h.next a = some x) (hprev : h.prev a = some y) :
    ∃ n, h.load a = .ok n ∧ n.next = x ∧ n.prev = y := by
  obtain ⟨n, hn, rfl⟩ := Option.map_eq_some_iff.mp hnext
  refine ⟨n, load_of_node hn, rfl, ?_⟩
  simpa [prev, hn] using hprev

/-- Taking out a node relinks its neighbours. -/
theorem delNode_spec (hnext : h.next p = some b) (hprev : h.prev p = some a)
    (hb : (h.node b).isSome) (ha : (h.node a).isSome) :
    ∃ h', h.delNode p = .ok h' ∧ h.SameData h' ∧
      h'.next = Function.update (Function.update h.next a (some b)) p (some p) ∧
      h'.prev = Function.update (Function.update h.prev b (some a)) p (some p) := by
  have hp : (h.node p).isSome := by
    rw [← isSome_next, hnext]
    rfl
  obtain ⟨n, hload, hnb, hna⟩ := load_of_links hnext hprev
  obtain ⟨h₁, hset₁, hprev₁, hnext₁, hsame₁⟩ := setPrev_spec hb a
  -- the second read of the links sees the first write if the node is linked to itself
  obtain ⟨y, hy⟩ : ∃ y, h₁.prev p = some y := by
    rw [← Option.isSome_iff_exists, isSome_prev, hsame₁.isSome]
    exact hp
  obtain ⟨n₁, hload₁, hnb₁, -⟩ := load_of_links (hnext₁ ▸ hnext) hy
  obtain ⟨h₂, hset₂, hnext₂, hprev₂, hsame₂⟩ :=
    setNext_spec (h := h₁) (a := a) (by rw [hsame₁.isSome]; exact ha) b
  obtain ⟨h₃, hset₃, hnext₃, hprev₃, hsame₃⟩ := setNext_spec (h := h₂) (a := p)
    (by rw [hsame₂.isSome, hsame₁.isSome]; exact hp) p
  obtain ⟨h₄, hset₄, hprev₄, hnext₄, hsame₄⟩ := setPrev_spec (h := h₃) (a := p)
    (by rw [hsame₃.isSome, hsame₂.isSome, hsame₁.isSome]; exact hp) p
  refine ⟨h₄, ?_, hsame₁.trans (hsame₂.trans (hsame₃.trans hsame₄)), ?_, ?_⟩
  · simp only [delNode, hload, bind, Except.bind, hnb, hna, hset₁, hload₁, hnb₁,
      hset₂, hset₃, hset₄]
  · rw [hnext₄, hnext₃, hnext₂, hnext₁]
  · rw [hprev₄, hprev₃, hprev₂, hprev₁]

/-- A new node comes between the last one and the head. -/
theorem addTailNode_spec (hprev : h.prev b = some a) (ha : (h.node a).isSome)
    (hp : (h.node p).isSome) :
    ∃ h', h.addTailNode p b = .ok h' ∧ h.SameData h' ∧
      h'.next = Function.update (Function.update h.next p (some b)) a (some p) ∧
      h'.prev = Function.update (Function.update h.prev b (some p)) p (some a) := by
  have hb : (h.node b).isSome := by
    rw [← isSome_prev, hprev]
    rfl
  obtain ⟨x, hx⟩ := Option.isSome_iff_exists.mp (isSome_next ▸ hb)
  obtain ⟨n, hload, -, hna⟩ := load_of_links hx hprev
  obtain ⟨h₁, hset₁, hprev₁, hnext₁, hsame₁⟩ := setPrev_spec hb p
  obtain ⟨h₂, hset₂, hnext₂, hprev₂, hsame₂⟩ := setNext_spec (h := h₁) (a := p)
    (by rw [hsame₁.isSome]; exact hp) b
  obtain ⟨h₃, hset₃, hprev₃, hnext₃, hsame₃⟩ := setPrev_spec (h := h₂) (a := p)
    (by rw [hsame₂.isSome, hsame₁.isSome]; exact hp) a
  obtain ⟨h₄, hset₄, hnext₄, hprev₄, hsame₄⟩ := setNext_spec (h := h₃) (a := a)
    (by rw [hsame₃.isSome, hsame₂.isSome, hsame₁.isSome]; exact ha) p
  refine ⟨h₄, ?_, hsame₁.trans (hsame₂.trans (hsame₃.trans hsame₄)), ?_, ?_⟩
  · simp only [addTailNode, hload, bind, Except.bind, hna, hset₁, hset₂, hset₃, hset₄]
  · rw [hnext₄, hnext₃, hnext₂, hnext₁]
  · rw [hprev₄, hprev₃, hprev₂, hprev₁]

/-! ### Rings -/

/-- Node `a` is right before node `b`. -/
def Linked (h : Heap) (a b : ℕ) : Prop := h.next a = some b ∧ h.prev b = some a

/-- The nodes `xs` follow the head, and the last one leads back to it. -/
structure Ring (h : Heap) (head : ℕ) (xs : List ℕ) : Prop where
  chain : (head :: xs ++ [head]).IsChain h.Linked
  nodup : (head :: xs).Nodup

variable {head : ℕ} {xs l₁ l₂ : List ℕ}

theorem Linked.left (hl : h.Linked a b) : (h.node a).isSome := by
  rw [← isSome_next, hl.1]
  rfl

theorem Linked.right (hl : h.Linked a b) : (h.node b).isSome := by
  rw [← isSome_prev, hl.2]
  rfl

/-- The first node, or the head itself if there is none. -/
theorem Ring.next_head (hr : h.Ring head xs) : h.next head = some (xs.headD head) := by
  cases xs with
  | nil => exact (List.isChain_pair.mp hr.chain).1
  | cons x xs => exact (List.isChain_cons_cons.mp hr.chain).1.1

/-- The last node, or the head itself. -/
theorem Ring.prev_head (hr : h.Ring head xs) : h.prev head = some (xs.getLastD head) := by
  obtain ⟨-, -, hlast⟩ := List.isChain_append.mp hr.chain
  refine (hlast _ ?_ head rfl).2
  simp [List.getLast?_cons, List.getLastD_eq_getLast?]

/-- The neighbours of a node in a ring. -/
theorem Ring.neighbours (hr : h.Ring head (l₁ ++ p :: l₂)) :
    ∃ a b, h.Linked a p ∧ h.Linked p b ∧ (head :: l₁).getLast? = some a ∧
      (l₂ ++ [head]).head? = some b ∧ (head :: l₁).IsChain h.Linked ∧
      (l₂ ++ [head]).IsChain h.Linked := by
  have hchain := hr.chain
  have hlist : head :: (l₁ ++ p :: l₂) ++ [head] = (head :: l₁) ++ p :: (l₂ ++ [head]) := by
    simp
  rw [hlist, List.isChain_append] at hchain
  obtain ⟨hleft, hright, hmid⟩ := hchain
  rw [List.isChain_cons] at hright
  obtain ⟨a, ha⟩ : ∃ a, (head :: l₁).getLast? = some a := ⟨_, List.getLast?_cons⟩
  obtain ⟨b, hb⟩ : ∃ b, (l₂ ++ [head]).head? = some b := by
    cases l₂ with
    | nil => exact ⟨head, rfl⟩
    | cons y l₂ => exact ⟨y, rfl⟩
  exact ⟨a, b, hmid a ha p rfl, hright.1 b hb, ha, hb, hleft, hright.2⟩

/-- **Any node can be taken out of a ring.** -/
theorem Ring.delNode (hr : h.Ring head (l₁ ++ p :: l₂)) :
    ∃ h', h.delNode p = .ok h' ∧ h.SameData h' ∧ h'.Ring head (l₁ ++ l₂) := by
  obtain ⟨a, b, hap, hpb, ha, hb, hleft, hright⟩ := hr.neighbours
  obtain ⟨h', hdel, hsame, hnext, hprev⟩ := delNode_spec hpb.1 hap.2 hpb.right hap.left
  have hnodup : (head :: (l₁ ++ p :: l₂)).Nodup := hr.nodup
  have hpl : p ∉ head :: l₁ := by
    intro hmem
    have hdisj := List.nodup_append.mp (show ((head :: l₁) ++ p :: l₂).Nodup from hnodup)
    exact hdisj.2.2 p hmem p (List.mem_cons_self) rfl
  have hpr : p ∉ l₂ ++ [head] := by
    intro hmem
    rcases List.mem_append.mp hmem with hmem | hmem
    · have hdisj := List.nodup_append.mp (show ((head :: l₁) ++ p :: l₂).Nodup from hnodup)
      exact (List.nodup_cons.mp hdisj.2.1).1 hmem
    · exact hpl (List.mem_singleton.mp hmem ▸ List.mem_cons_self)
  -- a link that does not touch the node is not one of those that change
  have hkeep : ∀ {u v}, u ≠ p → v ≠ p → h.Linked u v → h'.Linked u v := by
    intro u v hu hv hl
    refine ⟨?_, ?_⟩
    · rw [hnext, Function.update_of_ne hu, Function.update_of_ne, hl.1]
      rintro rfl
      exact hv (Option.some.inj (hl.1.symm.trans hap.1))
    · rw [hprev, Function.update_of_ne hv, Function.update_of_ne, hl.2]
      rintro rfl
      exact hu (Option.some.inj (hl.2.symm.trans hpb.2))
  have hap' : a ≠ p := fun heq => hpl (heq ▸ List.mem_of_getLast? ha)
  have hbp' : b ≠ p := fun heq => hpr (heq ▸ List.mem_of_mem_head? hb)
  refine ⟨h', hdel, hsame, ⟨?_, ?_⟩⟩
  · have hlist : head :: (l₁ ++ l₂) ++ [head] = (head :: l₁) ++ (l₂ ++ [head]) := by
      simp
    rw [hlist]
    refine List.IsChain.append ?_ ?_ ?_
    · exact hleft.imp_of_mem_imp fun u v hu hv =>
        hkeep (fun heq => hpl (heq ▸ hu)) (fun heq => hpl (heq ▸ hv))
    · exact hright.imp_of_mem_imp fun u v hu hv =>
        hkeep (fun heq => hpr (heq ▸ hu)) (fun heq => hpr (heq ▸ hv))
    · intro u hu v hv
      obtain rfl := Option.some.inj (ha.symm.trans hu)
      obtain rfl := Option.some.inj (hb.symm.trans hv)
      exact ⟨by rw [hnext, Function.update_of_ne hap', Function.update_self],
        by rw [hprev, Function.update_of_ne hbp', Function.update_self]⟩
  · exact hnodup.sublist (by simp)

/-- A node that is linked in between two neighbours is in the ring there. -/
theorem Ring.insert (hr : h.Ring head (l₁ ++ l₂)) (hp : p ∉ head :: (l₁ ++ l₂))
    (ha : (head :: l₁).getLast? = some a) (hb : (l₂ ++ [head]).head? = some b)
    (hnext : h'.next = Function.update (Function.update h.next p (some b)) a (some p))
    (hprev : h'.prev = Function.update (Function.update h.prev b (some p)) p (some a)) :
    h'.Ring head (l₁ ++ p :: l₂) := by
  have hsplit : head :: (l₁ ++ l₂) ++ [head] = (head :: l₁) ++ (l₂ ++ [head]) := by simp
  obtain ⟨hleft, hright, hmid⟩ := List.isChain_append.mp (hsplit ▸ hr.chain)
  have hlink : h.Linked a b := hmid a ha b hb
  have hleftp : ∀ u ∈ head :: l₁, u ≠ p := fun u hu heq => hp (by grind)
  have hrightp : ∀ u ∈ l₂ ++ [head], u ≠ p := fun u hu heq => hp (by grind)
  have hap := hleftp a (List.mem_of_getLast? ha)
  have hbp := hrightp b (List.mem_of_mem_head? hb)
  have hnodup := hr.nodup
  -- the only link that changes is the one that the new node cuts
  have hkeep : ∀ {u v}, u ≠ p → v ≠ p → v ≠ b → h.Linked u v → h'.Linked u v := by
    intro u v hu hv hvb hl
    refine ⟨?_, ?_⟩
    · rw [hnext, Function.update_of_ne, Function.update_of_ne hu, hl.1]
      rintro rfl
      exact hvb (Option.some.inj (hl.1.symm.trans hlink.1))
    · rw [hprev, Function.update_of_ne hv, Function.update_of_ne hvb, hl.2]
  refine ⟨?_, ?_⟩
  · have hlist : head :: (l₁ ++ p :: l₂) ++ [head] = (head :: l₁) ++ p :: (l₂ ++ [head]) := by
      simp
    rw [hlist]
    refine List.IsChain.append ?_ (List.IsChain.cons ?_ ?_) ?_
    · refine hleft.imp_of_mem_tail_imp fun u v hu hv => hkeep (hleftp u hu)
        (hleftp v (List.mem_of_mem_tail hv)) ?_
      rintro rfl
      have hvr := List.mem_of_mem_head? hb
      grind
    · refine hright.imp_of_mem_tail_imp fun u v hu hv => hkeep (hrightp u hu)
        (hrightp v (List.mem_of_mem_tail hv)) ?_
      rintro rfl
      cases l₂ with
      | nil => cases hv
      | cons x l₂ => grind
    · intro v hv
      obtain rfl := Option.some.inj (hb.symm.trans hv)
      exact ⟨by rw [hnext, Function.update_of_ne hap.symm, Function.update_self],
        by rw [hprev, Function.update_of_ne hbp, Function.update_self]⟩
    · intro u hu v hv
      obtain rfl := Option.some.inj (ha.symm.trans hu)
      cases hv
      exact ⟨by rw [hnext, Function.update_self], by rw [hprev, Function.update_self]⟩
  · have hperm : (head :: (l₁ ++ p :: l₂)).Perm (p :: head :: (l₁ ++ l₂)) :=
      (List.perm_middle.cons head).trans (List.Perm.swap p head _)
    exact hperm.nodup_iff.mpr (List.nodup_cons.mpr ⟨hp, hnodup⟩)

/-- **A node can be appended to a ring.** -/
theorem Ring.addTail (hr : h.Ring head xs) (hlive : (h.node p).isSome) (hp : p ∉ head :: xs) :
    ∃ h', h.addTailNode p head = .ok h' ∧ h.SameData h' ∧ h'.Ring head (xs ++ [p]) := by
  obtain ⟨a, ha⟩ : ∃ a, (head :: xs).getLast? = some a := ⟨_, List.getLast?_cons⟩
  have hlink : h.Linked a head := (List.isChain_append.mp hr.chain).2.2 a ha head rfl
  obtain ⟨h', hadd, hsame, hnext, hprev⟩ := addTailNode_spec hlink.2 hlink.left hlive
  rw [← xs.append_nil] at hr hp
  exact ⟨h', hadd, hsame, hr.insert hp ha rfl hnext hprev⟩

/-! ### Reading a ring -/

/-- The data of the nodes from `pos` on, along the links up to the head; `none` if these
are more than `n`. -/
def readFrom (h : Heap) (link : ℕ → Option ℕ) (head : ℕ) : ℕ → ℕ → Option (List (Option ℕ))
  | 0, pos => if pos = head then some [] else none
  | n + 1, pos =>
    if pos = head then some []
    else do
      let d ← h.data pos
      let next ← link pos
      return d :: (← readFrom h link head n next)

/-- All data of a ring, in the direction of the links. -/
def read (h : Heap) (link : ℕ → Option ℕ) (head n : ℕ) : Option (List (Option ℕ)) := do
  readFrom h link head n (← link head)

theorem read_of_chain {link : ℕ → Option ℕ} {ds : List (Option ℕ)} {n : ℕ}
    (hchain : (head :: xs ++ [head]).IsChain fun u v => link u = some v) (hhead : head ∉ xs)
    (hdata : xs.map h.data = ds.map some) (hn : xs.length ≤ n) :
    h.read link head n = some ds := by
  -- from any node of the ring on
  have hfrom : ∀ (ys : List ℕ) (ds : List (Option ℕ)) (n u : ℕ), head ∉ ys →
      (u :: ys ++ [head]).IsChain (fun u v => link u = some v) → ys.map h.data = ds.map some →
      ys.length ≤ n → (link u).bind (h.readFrom link head n) = some ds := by
    intro ys
    induction ys with
    | nil =>
      intro ds n u _ hchain hdata _
      have hlink : link u = some head := by simpa using hchain
      cases ds with
      | nil => cases n <;> simp [hlink, readFrom]
      | cons => simp at hdata
    | cons y ys ih =>
      intro ds n u hne hchain hdata hn
      obtain ⟨hlink, hchain⟩ := List.isChain_cons_cons.mp hchain
      rw [List.mem_cons, not_or] at hne
      cases ds with
      | nil => simp at hdata
      | cons d ds =>
        rw [List.map_cons, List.map_cons, List.cons.injEq] at hdata
        cases n with
        | zero => simp at hn
        | succ n =>
          have hrest := ih ds n y hne.2 hchain hdata.2 (by simpa using hn)
          obtain ⟨next, hnext, hread⟩ := Option.bind_eq_some_iff.mp hrest
          simp [hlink, readFrom, Ne.symm hne.1, hdata.1, hnext, hread]
  exact hfrom xs ds n head hhead hchain hdata hn

/-- **A ring reads the same in both directions.** -/
theorem Ring.read (hr : h.Ring head xs) {ds : List (Option ℕ)}
    (hdata : xs.map h.data = ds.map some) {n : ℕ} (hn : xs.length ≤ n) :
    h.read h.next head n = some ds ∧ h.read h.prev head n = some ds.reverse := by
  have hhead : head ∉ xs := (List.nodup_cons.mp hr.nodup).1
  refine ⟨read_of_chain (hr.chain.imp fun u v hl => hl.1) hhead hdata hn, ?_⟩
  have hback : (head :: xs.reverse ++ [head]).IsChain fun u v => h.prev u = some v := by
    have hrev := List.isChain_reverse.mpr (hr.chain.imp fun u v hl => hl.2)
    simpa [flip] using hrev
  refine read_of_chain hback (by simpa using hhead) ?_ (by simpa using hn)
  rw [List.map_reverse, List.map_reverse, hdata]

/-- A ring is there as long as its nodes are. -/
theorem Ring.congr (hr : h.Ring head xs) (hnode : ∀ x ∈ head :: xs, h'.node x = h.node x) :
    h'.Ring head xs := by
  refine ⟨hr.chain.imp_of_mem_imp fun u v hu hv hl => ?_, hr.nodup⟩
  have hmem : ∀ {x}, x ∈ head :: xs ++ [head] → x ∈ head :: xs := by
    intro x hx
    simpa [or_comm] using hx
  refine ⟨?_, ?_⟩
  · rw [next, hnode u (hmem hu)]
    exact hl.1
  · rw [prev, hnode v (hmem hv)]
    exact hl.2

/-- A head linked to itself is a ring without nodes. -/
theorem Ring.init (hlive : (h.node head).isSome) :
    ∃ h', h.initNode head = .ok h' ∧ h.SameData h' ∧ h'.Ring head [] := by
  obtain ⟨h₁, hset₁, hnext₁, -, hsame₁⟩ := setNext_spec hlive head
  obtain ⟨h₂, hset₂, hprev₂, hnext₂, hsame₂⟩ :=
    setPrev_spec (h := h₁) (a := head) (by rw [hsame₁.isSome]; exact hlive) head
  refine ⟨h₂, ?_, hsame₁.trans hsame₂, ⟨?_, List.nodup_singleton head⟩⟩
  · simp only [initNode, bind, Except.bind, hset₁, hset₂]
  · refine List.isChain_pair.mpr ⟨?_, ?_⟩
    · rw [hnext₂, hnext₁, Function.update_self]
    · rw [hprev₂, Function.update_self]

theorem Ring.isSome (hr : h.Ring head xs) {x : ℕ} (hx : x ∈ head :: xs) : (h.node x).isSome := by
  obtain ⟨l₁, l₂, heq⟩ := List.append_of_mem hx
  have hchain := hr.chain
  rw [heq, List.append_assoc, List.isChain_append] at hchain
  cases l₂ with
  | nil => exact (List.isChain_cons_cons.mp hchain.2.1).1.left
  | cons y l₂ => exact (List.isChain_cons_cons.mp hchain.2.1).1.left

/-- Memory that was not live is not in a ring, which stays when it becomes a node. -/
theorem Ring.alloc (hr : h.Ring head xs) (hfresh : h.node a = none) (n : Option Node) :
    a ∉ head :: xs ∧ { h with node := Function.update h.node a n : Heap }.Ring head xs := by
  have hdead : a ∉ head :: xs := by
    intro hmem
    have hlive := hr.isSome hmem
    rw [hfresh] at hlive
    cases hlive
  refine ⟨hdead, hr.congr fun x hx => Function.update_of_ne ?_ _ _⟩
  rintro rfl
  exact hdead hx

/-! ### Rings with data -/

/-- A new node at `a`. -/
def alloc (h : Heap) (a : ℕ) (data : Option ℕ) : Heap :=
  { h with node := Function.update h.node a (some ⟨0, 0, data⟩) }

/-- The nodes of a ring, each with its data. -/
structure Holds (h : Heap) (head : ℕ) (xs : List (ℕ × Option ℕ)) : Prop where
  ring : h.Ring head (xs.map Prod.fst)
  data : ∀ x ∈ xs, h.data x.1 = some x.2

section Holds

variable {x : ℕ × Option ℕ} {xs l₁ l₂ : List (ℕ × Option ℕ)} {d : Option ℕ}

theorem Holds.ring_append (hh : h.Holds head (l₁ ++ x :: l₂)) :
    h.Ring head (l₁.map Prod.fst ++ x.1 :: l₂.map Prod.fst) := by
  simpa using hh.ring

theorem Holds.ne_head (hh : h.Holds head (l₁ ++ x :: l₂)) : x.1 ≠ head := by
  intro heq
  have hnodup := hh.ring.nodup
  simp [heq] at hnodup

theorem Holds.load_head (hh : h.Holds head xs) :
    ∃ n, h.load head = .ok n ∧ n.next = (xs.map Prod.fst).headD head ∧
      n.prev = (xs.map Prod.fst).getLastD head :=
  load_of_links hh.ring.next_head hh.ring.prev_head

theorem Holds.load (hh : h.Holds head (l₁ ++ x :: l₂)) :
    ∃ n, h.load x.1 = .ok n ∧ n.data = x.2 ∧ n.next = (l₂.map Prod.fst).headD head := by
  obtain ⟨_, b, -, hxb, -, hb, -, -⟩ := hh.ring_append.neighbours
  obtain ⟨n, hn, hdata⟩ := Option.map_eq_some_iff.mp (hh.data x (by simp))
  refine ⟨n, load_of_node hn, hdata, ?_⟩
  have hnext : n.next = b := by simpa [next, hn] using hxb.1
  rw [hnext]
  cases l₂ with
  | nil | cons y l₂ => exact (Option.some.inj hb).symm

/-- **Any node can be taken out**, and its memory freed. -/
theorem Holds.remove (hh : h.Holds head (l₁ ++ x :: l₂)) :
    ∃ h₁ n, h.delNode x.1 = .ok h₁ ∧ h.SameData h₁ ∧ h₁.node x.1 = some n ∧ n.data = x.2 ∧
      ∀ h' : Heap, h'.node = Function.update h₁.node x.1 none → h'.Holds head (l₁ ++ l₂) := by
  obtain ⟨h₁, hdel, hsame, hring⟩ := hh.ring_append.delNode
  obtain ⟨n, hn, hdata⟩ := Option.map_eq_some_iff.mp
    ((congrFun hsame.data x.1).trans (hh.data x (by simp)))
  refine ⟨h₁, n, hdel, hsame, hn, hdata, fun h' hnode => ?_⟩
  have hkeep : ∀ y ∈ head :: (l₁ ++ l₂).map Prod.fst, h'.node y = h₁.node y := by
    intro y hy
    rw [hnode]
    refine Function.update_of_ne ?_ _ _
    rintro rfl
    have hperm : (head :: (l₁ ++ x :: l₂).map Prod.fst).Perm
        (x.1 :: head :: (l₁ ++ l₂).map Prod.fst) := by
      simp only [List.map_append, List.map_cons]
      exact (List.perm_middle.cons _).trans (List.Perm.swap _ _ _)
    exact (List.nodup_cons.mp (hperm.nodup_iff.mp hh.ring.nodup)).1 hy
  rw [← List.map_append] at hring
  refine ⟨hring.congr hkeep, fun y hy => ?_⟩
  have hdata : h'.data y.1 = h₁.data y.1 := congrArg (Option.map Node.data)
    (hkeep y.1 (List.mem_cons_of_mem _ (List.mem_map_of_mem hy)))
  rw [hdata, hsame.data]
  refine hh.data y ?_
  simp only [List.mem_append, List.mem_cons] at hy ⊢
  tauto

theorem Holds.insert (hh : h.Holds head (l₁ ++ l₂)) (hdead : a ∉ head :: (l₁ ++ l₂).map Prod.fst)
    (hsame : (h.alloc a d).SameData h')
    (hring : h'.Ring head ((l₁ ++ (a, d) :: l₂).map Prod.fst)) :
    h'.Holds head (l₁ ++ (a, d) :: l₂) := by
  refine ⟨hring, fun y hy => ?_⟩
  rw [hsame.data]
  show (Function.update h.node a _ y.1).map Node.data = some y.2
  by_cases hya : y = (a, d)
  · simp [hya]
  · have hmem : y ∈ l₁ ++ l₂ := by simpa [hya] using hy
    have hne : y.1 ≠ a := by
      rintro rfl
      exact hdead (List.mem_cons_of_mem _ (List.mem_map_of_mem hmem))
    rw [Function.update_of_ne hne]
    exact hh.data y hmem

/-- **A new node can be appended.** -/
theorem Holds.addTail (hh : h.Holds head xs) (hfresh : h.node a = none) (d : Option ℕ) :
    ∃ h', (h.alloc a d).addTailNode a head = .ok h' ∧ (h.alloc a d).SameData h' ∧
      h'.Holds head (xs ++ [(a, d)]) := by
  obtain ⟨hdead, hring⟩ := hh.ring.alloc hfresh (some ⟨0, 0, d⟩)
  obtain ⟨h', hadd, hsame, hring'⟩ := hring.addTail (by simp) hdead
  rw [← xs.append_nil] at hh hdead
  exact ⟨h', hadd, hsame, hh.insert hdead hsame (by simpa using hring')⟩

end Holds

end Heap

end CircularList
