import Mathlib

namespace Heaps.Siblings

/-- An item of a list of siblings: its data, the items beside it and the first one below it. -/
structure Item (α : Type) where
  data : α
  next : Option Nat
  prev : Option Nat
  child : Option Nat
deriving DecidableEq, Repr

abbrev Heap (α : Type) : Type := Nat → Option (Item α)

/-- Siblings, each with its address and what is below it. -/
inductive Forest (α : Type)
  | nil
  | cons (address : Nat) (data : α) (children rest : Forest α)
deriving DecidableEq, Repr

variable {α : Type}

namespace Forest

def items : Forest α → List (Nat × α)
  | nil => []
  | cons address data children rest => (address, data) :: (children.items ++ rest.items)

def addresses (forest : Forest α) : List Nat := forest.items.map Prod.fst

def append : Forest α → Forest α → Forest α
  | nil, other => other
  | cons address data children rest, other => cons address data children (rest.append other)

/-- The items of a list as siblings with nothing below them. -/
def chain : List (Nat × α) → Forest α
  | [] => nil
  | (address, data) :: rest => cons address data nil (chain rest)

/-- The address of the last of the siblings, after this one. -/
def lastFrom (first : Nat) : Forest α → Nat
  | nil => first
  | cons address _ _ rest => rest.lastFrom address

theorem items_append (forest other : Forest α) : (forest.append other).items = forest.items ++ other.items := by
  induction forest with
  | nil => rfl
  | cons address data children rest _ ih => simp only [append, items, ih, List.cons_append, List.append_assoc]

theorem items_chain (list : List (Nat × α)) : (chain list).items = list := by
  induction list with
  | nil => rfl
  | cons item rest ih => simp only [chain, items, ih, List.nil_append]

@[simp] theorem addresses_nil : (nil : Forest α).addresses = [] := rfl

@[simp] theorem addresses_cons (address : Nat) (data : α) (children rest : Forest α) :
    (cons address data children rest).addresses = address :: (children.addresses ++ rest.addresses) := by
  simp [addresses, items]

@[simp] theorem addresses_append (forest other : Forest α) :
    (forest.append other).addresses = forest.addresses ++ other.addresses := by
  simp [addresses, items_append]

theorem lastFrom_mem (address : Nat) (data : α) (children rest : Forest α) :
    rest.lastFrom address ∈ (cons address data children rest).addresses := by
  induction rest generalizing address data children with
  | nil => simp [lastFrom]
  | cons next below beneath after _ ih =>
    have hmem := ih next below beneath
    rw [addresses_cons]
    exact List.mem_cons_of_mem _ (List.mem_append_right _ hmem)

end Forest

section Heap

def Heap.links (heap : Heap α) (address : Nat) : Option (α × Option Nat × Option Nat) :=
  (heap address).map (fun item => (item.data, item.next, item.child))

def Heap.modify (heap : Heap α) (address : Nat) (f : Item α → Item α) : Heap α :=
  fun other => if other = address then (heap other).map f else heap other

theorem modify_ne (heap : Heap α) {address other : Nat} (f : Item α → Item α) (h : other ≠ address) :
    heap.modify address f other = heap other := if_neg h

theorem modify_self (heap : Heap α) (address : Nat) (f : Item α → Item α) :
    heap.modify address f address = (heap address).map f := if_pos rfl

theorem links_modify_ne (heap : Heap α) {address other : Nat} (f : Item α → Item α) (h : other ≠ address) :
    (heap.modify address f).links other = heap.links other := by
  rw [Heap.links, Heap.modify, if_neg h]
  rfl

theorem links_modify (heap : Heap α) (address : Nat) (f : Item α → Item α) :
    (heap.modify address f).links address =
      (heap address).map (fun item => ((f item).data, (f item).next, (f item).child)) := by
  rw [Heap.links, Heap.modify, if_pos rfl, Option.map_map]
  rfl

/-- The item before this one is set, where there is one. -/
def Heap.setPrev (heap : Heap α) (address prev : Option Nat) : Heap α :=
  match address with
  | none => heap
  | some address => heap.modify address (fun item => { item with prev })

theorem links_setPrev (heap : Heap α) (address prev : Option Nat) (other : Nat) :
    (heap.setPrev address prev).links other = heap.links other := by
  cases address with
  | none => rfl
  | some address =>
    by_cases h : other = address
    · rw [h]
      exact links_modify heap address _
    · exact links_modify_ne heap _ h

theorem setPrev_ne (heap : Heap α) {address : Option Nat} (prev : Option Nat) {other : Nat} (h : address ≠ some other) :
    heap.setPrev address prev other = heap other := by
  cases address with
  | none => rfl
  | some address => exact modify_ne heap _ (fun heq => h (congrArg some heq.symm))

/-- The heap holds these siblings from this address on. -/
def Laid (heap : Heap α) : Option Nat → Forest α → Prop
  | first, .nil => first = none
  | first, .cons address data children rest =>
    first = some address ∧ ∃ next child, heap.links address = some (data, next, child) ∧
      Laid heap child children ∧ Laid heap next rest

theorem Laid.congr {heap other : Heap α} {first : Option Nat} {forest : Forest α} (h : Laid heap first forest)
    (hsame : ∀ address ∈ forest.addresses, other.links address = heap.links address) : Laid other first forest := by
  induction forest generalizing first with
  | nil => exact h
  | cons address data children rest ihchildren ihrest =>
    rw [Forest.addresses_cons] at hsame
    obtain ⟨hfirst, next, child, hlinks, hchildren, hrest⟩ := h
    refine ⟨hfirst, next, child, ?_, ihchildren hchildren ?_, ihrest hrest ?_⟩
    · rw [hsame address List.mem_cons_self, hlinks]
    · exact fun below hbelow => hsame below (List.mem_cons_of_mem _ (List.mem_append_left _ hbelow))
    · exact fun after hafter => hsame after (List.mem_cons_of_mem _ (List.mem_append_right _ hafter))

/-- What is seen where nothing but the item after the last sibling has changed. -/
def relinked (last : Nat) (first : Option Nat) (address : Nat) (links : α × Option Nat × Option Nat) :
    α × Option Nat × Option Nat :=
  if address = last then (links.1, first, links.2.2) else links

theorem map_relinked_ne {last address : Nat} (first : Option Nat) (links : Option (α × Option Nat × Option Nat))
    (h : address ≠ last) : links.map (relinked last first address) = links := by
  cases links with
  | none => rfl
  | some links => rw [Option.map_some, relinked, if_neg h]

/-- Other siblings are put behind the last one. -/
theorem Laid.relink {heap other : Heap α} {first : Option Nat} {more : Forest α} (hmore : Laid other first more)
    {address : Nat} {data : α} {children rest : Forest α}
    (h : Laid heap (some address) (.cons address data children rest))
    (hnodup : (Forest.cons address data children rest).addresses.Nodup)
    (hother : ∀ a ∈ (Forest.cons address data children rest).addresses,
      other.links a = (heap.links a).map (relinked (rest.lastFrom address) first a)) :
    Laid other (some address) ((Forest.cons address data children rest).append more) := by
  induction rest generalizing address data children with
  | nil =>
    rw [Forest.addresses_cons, List.nodup_cons] at hnodup
    rw [Forest.addresses_cons] at hother
    obtain ⟨-, next, child, hlinks, hchildren, hnext⟩ := h
    refine ⟨rfl, first, child, ?_, hchildren.congr ?_, hmore⟩
    · rw [hother address List.mem_cons_self, hlinks, Option.map_some, relinked, Forest.lastFrom, if_pos rfl]
    · intro below hbelow
      have hmem := List.mem_append_left (Forest.nil : Forest α).addresses hbelow
      have hne : below ≠ address := fun heq => hnodup.1 (heq ▸ hmem)
      rw [hother below (List.mem_cons_of_mem _ hmem)]
      exact map_relinked_ne _ _ hne
  | cons next data' children' rest' _ ih =>
    have hlast := Forest.lastFrom_mem next data' children' rest'
    rw [Forest.addresses_cons, List.nodup_cons, List.nodup_append] at hnodup
    obtain ⟨haddress, -, hrestNodup, hdisjoint⟩ := hnodup
    rw [Forest.addresses_cons] at hother
    obtain ⟨-, after, child, hlinks, hchildren, hrest⟩ := h
    have hafter : after = some next := hrest.1
    rw [hafter] at hrest hlinks
    refine ⟨rfl, some next, child, ?_, hchildren.congr ?_, ih hrest hrestNodup ?_⟩
    · have hne : address ≠ rest'.lastFrom next := fun heq => haddress (List.mem_append_right _ (heq ▸ hlast))
      rw [hother address List.mem_cons_self, hlinks]
      exact map_relinked_ne _ _ hne
    · intro below hbelow
      have hne : below ≠ rest'.lastFrom next := fun heq => hdisjoint below hbelow _ hlast heq
      rw [hother below (List.mem_cons_of_mem _ (List.mem_append_left _ hbelow))]
      exact map_relinked_ne _ _ hne
    · intro a ha
      exact hother a (List.mem_cons_of_mem _ (List.mem_append_right _ ha))

end Heap

section Walk

def lastSibling (heap : Heap α) : Nat → Nat → Option Nat
  | 0, _ => none
  | fuel + 1, address =>
    match heap address with
    | none => none
    | some item =>
      match item.next with
      | none => some address
      | some next => lastSibling heap fuel next

theorem lastSibling_laid {heap : Heap α} {address : Nat} {data : α} {children rest : Forest α}
    (h : Laid heap (some address) (.cons address data children rest)) {fuel : Nat}
    (hfuel : (Forest.cons address data children rest).items.length ≤ fuel) :
    lastSibling heap fuel address = some (rest.lastFrom address) := by
  induction rest generalizing address data children fuel with
  | nil =>
    cases fuel with
    | zero => exact absurd hfuel (by simp [Forest.items])
    | succ fuel =>
      obtain ⟨-, next, child, hlinks, -, hnext⟩ := h
      obtain ⟨item, hitem, hdata⟩ := Option.map_eq_some_iff.mp hlinks
      have hnone : item.next = none := (Prod.mk.inj (Prod.mk.inj hdata).2).1.trans hnext
      simp only [lastSibling, hitem, hnone, Forest.lastFrom]
  | cons next data' children' rest' _ ih =>
    cases fuel with
    | zero => exact absurd hfuel (by simp [Forest.items])
    | succ fuel =>
      obtain ⟨-, after, child, hlinks, -, hrest⟩ := h
      obtain ⟨item, hitem, hdata⟩ := Option.map_eq_some_iff.mp hlinks
      have hsome : item.next = some next := (Prod.mk.inj (Prod.mk.inj hdata).2).1.trans hrest.1
      have hless : (Forest.cons next data' children' rest').items.length ≤ fuel := by
        simp only [Forest.items, List.length_cons, List.length_append] at hfuel ⊢
        omega
      simp only [lastSibling, hitem, hsome, Forest.lastFrom]
      exact ih (hrest.1 ▸ hrest) hless

/-- The items below this one are put between it and the next one. -/
def raise (heap : Heap α) (fuel current : Nat) : Option (Heap α) :=
  match heap current with
  | none => none
  | some item =>
    match item.child with
    | none => some heap
    | some child =>
      match lastSibling heap fuel child with
      | none => none
      | some tail =>
        let heap := heap.modify tail (fun last => { last with next := item.next })
        let heap := heap.setPrev item.next (some tail)
        let heap := heap.modify current (fun item => { item with next := some child })
        let heap := heap.setPrev (some child) (some current)
        some (heap.modify current (fun item => { item with child := none }))

/-- A walk along the siblings that changes the data of each item and puts what is below it
behind it, with the items it comes to. -/
def walk (change : α → α) : Nat → Heap α → Option Nat → Option (Heap α × List Nat)
  | _, heap, none => some (heap, [])
  | 0, _, some _ => none
  | fuel + 1, heap, some current =>
    match raise (heap.modify current (fun item => { item with data := change item.data })) fuel current with
    | none => none
    | some heap =>
      match heap current with
      | none => none
      | some item => (walk change fuel heap item.next).map (fun (heap, visited) => (heap, current :: visited))

/-- The items from an address on, as a deletion goes through them: what is below an item is
released before it, and what is beside it after it. -/
def release (heap : Heap α) : Nat → Option Nat → Option (List (Nat × α))
  | _, none => some []
  | 0, some _ => none
  | fuel + 1, some address =>
    match heap address with
    | none => none
    | some item => do
      let below ← release heap fuel item.child
      let after ← release heap fuel item.next
      some (below ++ (address, item.data) :: after)

theorem release_laid {heap : Heap α} {first : Option Nat} {forest : Forest α} (h : Laid heap first forest) {fuel : Nat}
    (hfuel : forest.items.length ≤ fuel) : ∃ released, release heap fuel first = some released := by
  induction forest generalizing first fuel with
  | nil =>
    rw [show first = none from h]
    exact ⟨[], by rw [release]⟩
  | cons address data children rest ihchildren ihrest =>
    cases fuel with
    | zero => exact absurd hfuel (by simp [Forest.items])
    | succ fuel =>
      obtain ⟨rfl, next, child, hlinks, hchildren, hrest⟩ := h
      obtain ⟨item, hitem, hdata⟩ := Option.map_eq_some_iff.mp hlinks
      cases hdata
      simp only [Forest.items, List.length_cons, List.length_append] at hfuel
      have hless : children.items.length ≤ fuel ∧ rest.items.length ≤ fuel := by omega
      obtain ⟨below, hbelow⟩ := ihchildren hchildren hless.1
      obtain ⟨after, hafter⟩ := ihrest hrest hless.2
      refine ⟨below ++ (address, item.data) :: after, ?_⟩
      simp only [release, hitem, hbelow, hafter]
      rfl

theorem release_perm {heap : Heap α} {first : Option Nat} {forest : Forest α} (h : Laid heap first forest) {fuel : Nat}
    {released : List (Nat × α)} (hreleased : release heap fuel first = some released) : released.Perm forest.items := by
  induction forest generalizing first fuel released with
  | nil =>
    rw [show first = none from h, release] at hreleased
    cases hreleased
    exact .refl _
  | cons address data children rest ihchildren ihrest =>
    obtain ⟨rfl, next, child, hlinks, hchildren, hrest⟩ := h
    obtain ⟨item, hitem, hdata⟩ := Option.map_eq_some_iff.mp hlinks
    cases hdata
    cases fuel with
    | zero => cases hreleased
    | succ fuel =>
      simp only [release, hitem, Option.bind_eq_bind, Option.bind_eq_some_iff, Option.some.injEq] at hreleased
      obtain ⟨below, hbelow, after, hafter, rfl⟩ := hreleased
      exact List.perm_middle.trans (((ihchildren hchildren hbelow).append (ihrest hrest hafter)).cons _)

open Classical in
noncomputable def releaseAll (heap : Heap α) (first : Option Nat) : List (Nat × α) :=
  if h : ∃ released fuel, release heap fuel first = some released then h.choose else []

theorem releaseAll_perm {heap : Heap α} {first : Option Nat} {forest : Forest α} (h : Laid heap first forest) :
    (releaseAll heap first).Perm forest.items := by
  obtain ⟨released, hreleased⟩ := release_laid h (Nat.le_refl _)
  have hsome : ∃ released fuel, release heap fuel first = some released := ⟨released, _, hreleased⟩
  rw [releaseAll, dif_pos hsome]
  obtain ⟨fuel, hfuel⟩ := hsome.choose_spec
  exact release_perm h hfuel

/-- What is there once the items below one are raised, but for the items before others. -/
theorem raise_spec {heap : Heap α} {current : Nat} {data : α} {children rest : Forest α}
    (h : Laid heap (some current) (.cons current data children rest))
    (hnodup : (Forest.cons current data children rest).addresses.Nodup) {fuel : Nat}
    (hfuel : children.items.length ≤ fuel) :
    ∃ after next, raise heap fuel current = some after ∧ after.links current = some (data, next, none) ∧
      Laid after next (children.append rest) ∧
      ∀ a, a ∉ (Forest.cons current data children rest).addresses → after a = heap a := by
  obtain ⟨-, next, child, hlinks, hchildren, hrest⟩ := h
  obtain ⟨item, hitem, hdata⟩ := Option.map_eq_some_iff.mp hlinks
  cases hdata
  rw [Forest.addresses_cons, List.nodup_cons, List.nodup_append] at hnodup
  obtain ⟨hcurrent, hchildrenNodup, hrestNodup, hdisjoint⟩ := hnodup
  cases children with
  | nil =>
    have hnone : item.child = none := hchildren
    refine ⟨heap, item.next, ?_, ?_, hrest, fun _ _ => rfl⟩
    · simp only [raise, hitem, hnone]
    · rw [Heap.links, hitem, Option.map_some, hnone]
  | cons child data' below beside =>
    have hchild : item.child = some child := hchildren.1
    rw [hchild] at hchildren
    have htail := lastSibling_laid hchildren hfuel
    have hlastMem := Forest.lastFrom_mem child data' below beside
    generalize hlast : beside.lastFrom child = tail at htail hlastMem
    have hchildMem : child ∈ (Forest.cons child data' below beside).addresses := by simp
    have htailNe : current ≠ tail := fun heq => hcurrent (List.mem_append_left _ (heq ▸ hlastMem))
    have hchildNe : current ≠ child := fun heq => hcurrent (List.mem_append_left _ (heq ▸ hchildMem))
    have hnextMem : ∀ next, item.next = some next → next ∈ rest.addresses := by
      intro next hnext
      cases rest with
      | nil => cases hnext.symm.trans hrest
      | cons address data'' children' rest' =>
        cases hnext.symm.trans hrest.1
        simp
    have hnextNe : ∀ a, a ∉ rest.addresses → item.next ≠ some a := fun a ha hnext => ha (hnextMem a hnext)
    have hcurrentNext := hnextNe current (fun hmem => hcurrent (List.mem_append_right _ hmem))
    -- what the others look like is decided by the first change alone
    have hothers : ∀ a, a ≠ current → ∀ f g : Item α → Item α,
        Heap.links ((((((heap.modify tail fun last => { last with next := item.next }).setPrev item.next (some tail)).modify
          current f).setPrev (some child) (some current)).modify current g)) a =
          (heap.links a).map (relinked tail item.next a) := by
      intro a ha f g
      rw [links_modify_ne _ _ ha, links_setPrev, links_modify_ne _ _ ha, links_setPrev]
      by_cases htailA : a = tail
      · rw [htailA, links_modify, Heap.links, Option.map_map]
        refine congrArg (fun change => (heap tail).map change) ?_
        funext last
        exact (if_pos rfl).symm
      · rw [links_modify_ne _ _ htailA, map_relinked_ne _ _ htailA]
    simp only [raise, hitem, hchild, htail]
    refine ⟨_, some child, rfl, ?_, ?_, ?_⟩
    · rw [links_modify, setPrev_ne _ _ (by simpa using hchildNe.symm), modify_self, setPrev_ne _ _ hcurrentNext,
        modify_ne _ _ htailNe, hitem]
      rfl
    · subst hlast
      apply Laid.relink ?_ hchildren hchildrenNodup
      · intro a ha
        exact hothers a (fun heq => hcurrent (List.mem_append_left _ (heq ▸ ha))) _ _
      · apply hrest.congr
        intro a ha
        have hne : a ≠ beside.lastFrom child := fun heq => hdisjoint _ hlastMem a ha heq.symm
        rw [hothers a (fun heq => hcurrent (List.mem_append_right _ (heq ▸ ha))) _ _]
        exact map_relinked_ne _ _ hne
    · intro a ha
      rw [Forest.addresses_cons, List.mem_cons, List.mem_append, not_or, not_or] at ha
      have hchildA : child ≠ a := fun heq => ha.2.1 (heq ▸ hchildMem)
      have htailA : a ≠ tail := fun heq => ha.2.1 (heq ▸ hlastMem)
      rw [modify_ne _ _ ha.1, setPrev_ne _ _ (by simpa using hchildA), modify_ne _ _ ha.1,
        setPrev_ne _ _ (hnextNe a ha.2.2), modify_ne _ _ htailA]

theorem Laid.change {heap : Heap α} {first : Option Nat} {current : Nat} {data : α} {children rest : Forest α}
    (h : Laid heap first (.cons current data children rest)) (change : α → α)
    (hnodup : (Forest.cons current data children rest).addresses.Nodup) :
    Laid (heap.modify current (fun item => { item with data := change item.data })) first
      (.cons current (change data) children rest) := by
  rw [Forest.addresses_cons, List.nodup_cons, List.mem_append, not_or] at hnodup
  obtain ⟨hfirst, next, child, hlinks, hchildren, hrest⟩ := h
  refine ⟨hfirst, next, child, ?_, hchildren.congr ?_, hrest.congr ?_⟩
  · obtain ⟨item, hitem, hdata⟩ := Option.map_eq_some_iff.mp hlinks
    cases hdata
    rw [links_modify, hitem]
    rfl
  · exact fun a ha => links_modify_ne heap _ (fun heq => hnodup.1.1 (heq ▸ ha))
  · exact fun a ha => links_modify_ne heap _ (fun heq => hnodup.1.2 (heq ▸ ha))

/-- The walk ends, comes to each item once, and leaves them all as siblings with their data
changed; nothing else in the heap is touched. -/
theorem walk_spec (change : α → α) {heap : Heap α} {first : Option Nat} {forest : Forest α} (h : Laid heap first forest)
    (hnodup : forest.addresses.Nodup) {fuel : Nat} (hfuel : forest.items.length ≤ fuel) :
    ∃ after, walk change fuel heap first = some (after, forest.addresses) ∧
      Laid after first (.chain (forest.items.map (fun item => (item.1, change item.2)))) ∧
      ∀ a, a ∉ forest.addresses → after a = heap a := by
  induction fuel generalizing heap first forest with
  | zero =>
    cases forest with
    | nil =>
      rw [show first = none from h]
      exact ⟨heap, by rw [walk]; rfl, rfl, fun _ _ => rfl⟩
    | cons address data children rest => exact absurd hfuel (by simp [Forest.items])
  | succ fuel ih =>
    cases forest with
    | nil =>
      rw [show first = none from h]
      exact ⟨heap, by rw [walk]; rfl, rfl, fun _ _ => rfl⟩
    | cons current data children rest =>
      have hchanged := h.change change hnodup
      rw [show first = some current from h.1] at hchanged ⊢
      simp only [Forest.items, List.length_cons, List.length_append] at hfuel
      have hbelow : children.items.length ≤ fuel := by omega
      obtain ⟨raised, next, hraise, hlinks, hlaid, hframe⟩ :=
        raise_spec hchanged (by rwa [Forest.addresses_cons] at hnodup ⊢) hbelow
      rw [Forest.addresses_cons, List.nodup_cons] at hnodup
      obtain ⟨item, hitem, hdata⟩ := Option.map_eq_some_iff.mp hlinks
      have hnext : item.next = next := (Prod.mk.inj (Prod.mk.inj hdata).2).1
      have hless : (children.append rest).items.length ≤ fuel := by
        rw [Forest.items_append, List.length_append]
        omega
      obtain ⟨after, hwalk, hchain, hkept⟩ := ih hlaid (by rw [Forest.addresses_append]; exact hnodup.2) hless
      rw [Forest.addresses_append] at hwalk hkept
      refine ⟨after, ?_, ⟨rfl, next, none, ?_, rfl, ?_⟩, ?_⟩
      · simp only [walk, hraise, hitem, hnext, hwalk, Option.map_some, Forest.addresses_cons]
      · rw [Heap.links, hkept current hnodup.1]
        exact hlinks
      · rw [Forest.items_append] at hchain
        exact hchain
      · intro a ha
        rw [Forest.addresses_cons, List.mem_cons, not_or] at ha
        rw [hkept a ha.2, hframe a (by rw [Forest.addresses_cons, List.mem_cons, not_or]; exact ha), modify_ne _ _ ha.1]

end Walk

end Heaps.Siblings
