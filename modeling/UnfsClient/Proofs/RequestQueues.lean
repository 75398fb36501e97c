import UnfsClient.RequestQueues

/-!
# The request queues under every interleaving

The semaphore of a queue and its list are changed at different times. The invariant counts the calls
that stand between the two: a dequeue call that has passed `sem_wait` has its request still in the
list, and an enqueue call in its locked section may have linked a request that is not posted yet.
-/

namespace UnfsClient.Proofs

open Lib Function

variable {A : Type} [DecidableEq A] {head : RequestQueue → A} {c c' : QueueCtx A} {q : RequestQueue}

/-!
## `flist.h` on lists
-/

section Flist

variable {s : Links A} {h : A} {l : List A}

/-- The nodes of another list stay as they are. -/
def KeepsOthers (s s' : Links A) (nodes : List A) : Prop :=
  ∀ {h' : A} {l' : List A}, s.Ring h' l' → nodes.Disjoint (h' :: l') → s'.Ring h' l'

lemma flistAddTail_ring {rq : A} (hr : s.Ring h l) (hrq : rq ∉ h :: l) :
    ∃ s', flistAddTail s rq h = some s' ∧ s'.Ring h (l ++ [rq]) ∧ KeepsOthers s s' (rq :: h :: l) := by
  obtain ⟨p, hpmem, hp, -⟩ := hr.prev_head
  refine ⟨s.add rq p h, ?_, hr.add_tail hrq hp, ?_⟩
  · rw [flistAddTail, hp]
    rfl
  · intro h' l' hr' hdisj
    apply hr'.add_other
    · exact hdisj List.mem_cons_self
    · exact hdisj (List.mem_cons_of_mem _ hpmem)
    · exact hdisj (List.mem_cons_of_mem _ List.mem_cons_self)

lemma flistDel_ring {entry : A} {l₁ l₂ : List A} (hr : s.Ring h (l₁ ++ entry :: l₂)) :
    ∃ s', flistDel s entry = some s' ∧ s'.Ring h (l₁ ++ l₂) ∧
      KeepsOthers s s' (h :: (l₁ ++ entry :: l₂)) := by
  obtain ⟨-, -, ⟨p, hp, hlast⟩, n, hn, hhead⟩ := hr.cut
  refine ⟨s.del entry p n, ?_, hr.del_entry hp hn, ?_⟩
  · rw [flistDel, hp, hn]
    rfl
  · have hpmem := List.mem_of_getLast? hlast
    have hnmem := List.mem_of_mem_head? hhead
    intro h' l' hr' hdisj
    apply hr'.del_other
    · exact hdisj (by simp)
    · exact hdisj (by simp only [List.mem_cons, List.mem_append] at hpmem ⊢; tauto)
    · exact hdisj (by simp only [List.mem_cons, List.mem_append] at hnmem ⊢; tauto)

end Flist

/-!
## The invariant
-/

/-- What an enqueue or dequeue call can have left to do. -/
inductive IsCall : List (QueueOp A) → Prop
  | done : IsCall []
  | dequeue (q : RequestQueue) : IsCall [.semWait q, .takeFirst q]
  | passed (q : RequestQueue) : IsCall [.takeFirst q]
  | enqueue (q : RequestQueue) (rq : A) : IsCall [.initHead rq, .lockAndLink q rq, .semPost q, .unlock q]
  | linking (q : RequestQueue) (rq : A) : IsCall [.lockAndLink q rq, .semPost q, .unlock q]
  | posting (q : RequestQueue) : IsCall [.semPost q, .unlock q]
  | unlocking (q : RequestQueue) : IsCall [.unlock q]

/-- The call has linked its request and not posted it. -/
def unposted (q : RequestQueue) (call : List (QueueOp A)) : Bool := call = [.semPost q, .unlock q]

/-- The call holds the mutex. -/
def holding (q : RequestQueue) (call : List (QueueOp A)) : Bool := unposted q call || call = [.unlock q]

/-- The call has a request that it has not linked. -/
def carrying (rq : A) : List (QueueOp A) → Bool
  | .initHead rq' :: _ => rq' = rq
  | .lockAndLink _ rq' :: _ => rq' = rq
  | _ => false

structure QueueInv (head : RequestQueue → A) (c : QueueCtx A) (l : RequestQueue → List A) : Prop where
  ring : ∀ q, c.links.Ring (head q) (l q)
  fifo : ∀ q, c.linked q = c.returned q ++ l q
  counted : ∀ q, c.notify q + c.passed q + c.calls.countP (unposted q) = (l q).length
  mutex : ∀ q, c.calls.countP (holding q) = if c.locked q then 1 else 0
  once : ∀ rq, (c.linked .md).count rq + (c.linked .rw).count rq + c.calls.countP (carrying rq) ≤
    if rq ∈ c.issued then 1 else 0
  heads : ∀ q, head q ∉ c.issued
  calls : ∀ call ∈ c.calls, IsCall call

/-- The share of one call in a count. -/
lemma countP_middle {α : Type} (p : α → Bool) (l₁ l₂ : List α) (x : α) :
    (l₁ ++ x :: l₂).countP p = (l₁ ++ l₂).countP p + if p x then 1 else 0 := by
  simp only [List.countP_append, List.countP_cons]
  omega

omit [DecidableEq A] in
lemma IsCall.replace {l₁ l₂ : List (List (QueueOp A))} {x y : List (QueueOp A)}
    (h : ∀ call ∈ l₁ ++ x :: l₂, IsCall call) (hy : IsCall y) : ∀ call ∈ l₁ ++ y :: l₂, IsCall call := by
  simp only [List.mem_append, List.mem_cons] at h ⊢
  rintro call (hc | rfl | hc)
  · exact h call (.inl hc)
  · exact hy
  · exact h call (.inr (.inr hc))

namespace QueueInv

variable {l : RequestQueue → List A} {l₁ l₂ : List (List (QueueOp A))}

/-- A call that carries what it did before its step. -/
lemma once_replace (h : QueueInv head c l) {x y : List (QueueOp A)} (hcalls : c.calls = l₁ ++ x :: l₂)
    (hxy : ∀ rq, carrying rq x = carrying rq y) (rq : A) :
    (c.linked .md).count rq + (c.linked .rw).count rq + (l₁ ++ y :: l₂).countP (carrying rq) ≤
      if rq ∈ c.issued then 1 else 0 := by
  have ho := h.once rq
  rwa [hcalls, countP_middle, hxy, ← countP_middle] at ho

/-- A call that holds the mutexes it did before its step. -/
lemma mutex_replace (h : QueueInv head c l) {x y : List (QueueOp A)} (hcalls : c.calls = l₁ ++ x :: l₂)
    (hxy : ∀ q, holding q x = holding q y) (q : RequestQueue) :
    (l₁ ++ y :: l₂).countP (holding q) = if c.locked q then 1 else 0 := by
  have hm := h.mutex q
  rwa [hcalls, countP_middle, hxy, ← countP_middle] at hm

lemma semWait (h : QueueInv head c l) (hcalls : c.calls = l₁ ++ [.semWait q, .takeFirst q] :: l₂)
    (hpos : c.notify q ≠ 0) :
    QueueInv head { c with notify := update c.notify q (c.notify q - 1), calls := l₁ ++ [.takeFirst q] :: l₂ }
      l where
  ring := h.ring
  fifo := h.fifo
  counted q' := by
    have hc := h.counted q'
    simp only [QueueCtx.passed, hcalls, countP_middle, unposted] at hc ⊢
    by_cases hq : q = q'
    · subst hq
      simp at hc ⊢
      omega
    · simpa [hq, update_of_ne (Ne.symm hq)] using hc
  mutex := h.mutex_replace hcalls fun _ => by simp [holding, unposted]
  once := h.once_replace hcalls fun _ => rfl
  heads := h.heads
  calls := IsCall.replace (hcalls ▸ h.calls) (.passed q)

lemma semPost (h : QueueInv head c l) (hcalls : c.calls = l₁ ++ [.semPost q, .unlock q] :: l₂) :
    QueueInv head { c with notify := update c.notify q (c.notify q + 1), calls := l₁ ++ [.unlock q] :: l₂ }
      l where
  ring := h.ring
  fifo := h.fifo
  counted q' := by
    have hc := h.counted q'
    simp only [QueueCtx.passed, hcalls, countP_middle, unposted] at hc ⊢
    by_cases hq : q = q'
    · subst hq
      simp at hc ⊢
      omega
    · simpa [hq, update_of_ne (Ne.symm hq)] using hc
  mutex := h.mutex_replace hcalls fun _ => by simp [holding, unposted]
  once := h.once_replace hcalls fun _ => rfl
  heads := h.heads
  calls := IsCall.replace (hcalls ▸ h.calls) (.unlocking q)

lemma unlock (h : QueueInv head c l) (hcalls : c.calls = l₁ ++ [.unlock q] :: l₂) :
    QueueInv head { c with locked := update c.locked q false, calls := l₁ ++ [] :: l₂ } l where
  ring := h.ring
  fifo := h.fifo
  counted q' := by
    have hc := h.counted q'
    simp only [QueueCtx.passed, hcalls, countP_middle] at hc ⊢
    simpa [unposted] using hc
  mutex q' := by
    have hm := h.mutex q'
    simp only [hcalls, countP_middle] at hm ⊢
    by_cases hq : q = q'
    · subst hq
      have hunlocking : holding q ([.unlock q] : List (QueueOp A)) = true := by simp [holding]
      have hdone : holding q ([] : List (QueueOp A)) = false := by simp [holding, unposted]
      simp only [hunlocking, hdone, update_self, if_true, Bool.false_eq_true, if_false] at hm ⊢
      split at hm <;> omega
    · simpa [holding, unposted, hq, update_of_ne (Ne.symm hq)] using hm
  once := h.once_replace hcalls fun _ => rfl
  heads := h.heads
  calls := IsCall.replace (hcalls ▸ h.calls) .done

/-- A request in a queue was handed to an enqueue function. -/
lemma mem_issued (h : QueueInv head c l) {rq : A} (hrq : rq ∈ c.linked q) : rq ∈ c.issued := by
  have ho := h.once rq
  have hpos := List.count_pos_iff.mpr hrq
  by_contra hni
  rw [if_neg hni] at ho
  cases q <;> omega

lemma mem_linked (h : QueueInv head c l) {rq : A} (hrq : rq ∈ l q) : rq ∈ c.linked q := by
  rw [h.fifo q]
  exact List.mem_append_right _ hrq

/-- No request is linked into both queues. -/
lemma linked_disjoint (h : QueueInv head c l) {q' : RequestQueue} (hq : q ≠ q') {rq : A}
    (hrq : rq ∈ c.linked q) : rq ∉ c.linked q' := by
  intro hrq'
  have ho := h.once rq
  have hpos := List.count_pos_iff.mpr hrq
  have hpos' := List.count_pos_iff.mpr hrq'
  split at ho
  · cases q <;> cases q' <;> first | exact absurd rfl hq | omega
  · cases q <;> omega

/-- The nodes of the two lists are different ones. -/
lemma nodes_disjoint (h : QueueInv head c l) (hinj : Injective head) {q' : RequestQueue} (hq : q ≠ q') :
    (head q :: l q).Disjoint (head q' :: l q') := by
  have hhead : ∀ q q', head q ∉ l q' := fun q q' hm => h.heads q (h.mem_issued (h.mem_linked hm))
  intro x hx hx'
  cases List.mem_cons.mp hx with
  | inl hxq =>
    subst hxq
    cases List.mem_cons.mp hx' with
    | inl heq => exact hq (hinj heq)
    | inr hm => exact hhead q q' hm
  | inr hm =>
    cases List.mem_cons.mp hx' with
    | inl heq => exact hhead q' q (heq ▸ hm)
    | inr hm' => exact h.linked_disjoint hq (h.mem_linked hm) (h.mem_linked hm')

/-- A request that a call carries is in no list. -/
lemma carried_notMem (h : QueueInv head c l) {rq : A} {call : List (QueueOp A)} (hcall : call ∈ c.calls)
    (hrq : carrying rq call = true) (q : RequestQueue) : rq ∉ head q :: l q := by
  have ho := h.once rq
  have hpos : 0 < c.calls.countP (carrying rq) := List.countP_pos_iff.mpr ⟨call, hcall, hrq⟩
  have hissued : rq ∈ c.issued := by
    by_contra hni
    rw [if_neg hni] at ho
    omega
  rw [if_pos hissued] at ho
  intro hm
  cases List.mem_cons.mp hm with
  | inl heq => exact h.heads q (heq ▸ hissued)
  | inr hl =>
    have hlinked := List.count_pos_iff.mpr (h.mem_linked hl)
    cases q <;> omega

lemma initHead {rq : A} (h : QueueInv head c l)
    (hcalls : c.calls = l₁ ++ [.initHead rq, .lockAndLink q rq, .semPost q, .unlock q] :: l₂) :
    QueueInv head { c with links := initFlistHead c.links rq
                           calls := l₁ ++ [.lockAndLink q rq, .semPost q, .unlock q] :: l₂ } l where
  ring q' := by
    have hmem : [.initHead rq, .lockAndLink q rq, .semPost q, .unlock q] ∈ c.calls := by simp [hcalls]
    exact (h.ring q').init_other (h.carried_notMem hmem (by simp [carrying]) q')
  fifo := h.fifo
  counted q' := by
    have hc := h.counted q'
    simp only [QueueCtx.passed, hcalls, countP_middle] at hc ⊢
    simpa [unposted] using hc
  mutex := h.mutex_replace hcalls fun _ => by simp [holding, unposted]
  once := h.once_replace hcalls fun _ => rfl
  heads := h.heads
  calls := IsCall.replace (hcalls ▸ h.calls) (.linking q rq)

/-- The list of one queue changed, the other as it was. -/
lemma ring_update (h : QueueInv head c l) {links : Links A} {l' nodes : List A}
    (hring : links.Ring (head q) l') (hkeeps : KeepsOthers c.links links nodes)
    (hnodes : ∀ q', q ≠ q' → nodes.Disjoint (head q' :: l q')) (q' : RequestQueue) :
    links.Ring (head q') (update l q l' q') := by
  by_cases hq : q = q'
  · subst hq
    rwa [update_self]
  · rw [update_of_ne (Ne.symm hq)]
    exact hkeeps (h.ring q') (hnodes q' hq)

/-- A request more in the log of one queue. -/
lemma count_linked (linked : RequestQueue → List A) (q : RequestQueue) (rq a : A) :
    (update linked q (linked q ++ [rq]) .md).count a + (update linked q (linked q ++ [rq]) .rw).count a =
      (linked .md).count a + (linked .rw).count a + if rq = a then 1 else 0 := by
  have hone : [rq].count a = if rq = a then 1 else 0 := by
    rw [List.count_singleton]
    simp only [beq_iff_eq]
  cases q with
  | md =>
    rw [update_self, update_of_ne (by decide), List.count_append, hone]
    omega
  | rw =>
    rw [update_self, update_of_ne (by decide), List.count_append, hone]
    omega

lemma lockAndLink {rq : A} (h : QueueInv head c l) (hinj : Injective head)
    (hcalls : c.calls = l₁ ++ [.lockAndLink q rq, .semPost q, .unlock q] :: l₂) (hlock : c.locked q = false) :
    ∃ links, flistAddTail c.links rq (head q) = some links ∧
      QueueInv head { c with links := links
                             locked := update c.locked q true
                             linked := update c.linked q (c.linked q ++ [rq])
                             calls := l₁ ++ [.semPost q, .unlock q] :: l₂ }
        (update l q (l q ++ [rq])) := by
  have hmem : [.lockAndLink q rq, .semPost q, .unlock q] ∈ c.calls := by simp [hcalls]
  have hnot : ∀ q', rq ∉ head q' :: l q' := h.carried_notMem hmem (by simp [carrying])
  obtain ⟨links, hadd, hring, hkeeps⟩ := flistAddTail_ring (h.ring q) (hnot q)
  refine ⟨links, hadd, ?_, ?_, ?_, ?_, ?_, h.heads, ?_⟩
  · apply h.ring_update hring hkeeps
    intro q' hq x hx hx'
    cases List.mem_cons.mp hx with
    | inl heq => exact hnot q' (heq ▸ hx')
    | inr hm => exact h.nodes_disjoint hinj hq hm hx'
  · intro q'
    by_cases hq : q = q'
    · subst hq
      simp [h.fifo q]
    · simpa [update_of_ne (Ne.symm hq)] using h.fifo q'
  · intro q'
    have hc := h.counted q'
    simp only [QueueCtx.passed, hcalls, countP_middle, unposted] at hc ⊢
    by_cases hq : q = q'
    · subst hq
      simp at hc ⊢
      omega
    · simpa [hq, update_of_ne (Ne.symm hq)] using hc
  · intro q'
    have hm := h.mutex q'
    simp only [hcalls, countP_middle, holding, unposted] at hm ⊢
    by_cases hq : q = q'
    · subst hq
      simpa [hlock] using hm
    · simpa [hq, update_of_ne (Ne.symm hq)] using hm
  · intro a
    have ho := h.once a
    simp only [hcalls, countP_middle, count_linked] at ho ⊢
    simp only [carrying, decide_eq_true_eq, Bool.false_eq_true, if_false] at ho ⊢
    omega
  · exact IsCall.replace (hcalls ▸ h.calls) (.posting q)

/-- A call that has passed `sem_wait` finds a request. -/
lemma takeFirst (h : QueueInv head c l) (hinj : Injective head) (hcalls : c.calls = l₁ ++ [.takeFirst q] :: l₂) :
    ∃ rq rest links, l q = rq :: rest ∧ flistFirst c.links (head q) = some rq ∧
      flistDel c.links rq = some links ∧
      QueueInv head { c with links := links
                             returned := update c.returned q (c.returned q ++ [rq])
                             calls := l₁ ++ [] :: l₂ }
        (update l q rest) := by
  obtain ⟨rq, rest, hl⟩ : ∃ rq rest, l q = rq :: rest := by
    have hc := h.counted q
    simp only [QueueCtx.passed, hcalls, countP_middle, decide_true, if_true] at hc
    exact List.exists_cons_of_length_pos (by omega)
  have hringq := h.ring q
  rw [hl] at hringq
  obtain ⟨links, hdel, hring, hkeeps⟩ := flistDel_ring
    (show c.links.Ring (head q) ([] ++ rq :: rest) from hringq)
  refine ⟨rq, rest, links, hl, ?_, hdel, ?_, ?_, ?_, ?_, ?_, h.heads, ?_⟩
  · exact hringq.next_head
  · apply h.ring_update hring hkeeps
    intro q' hq
    have hdisj := h.nodes_disjoint hinj hq
    rwa [hl] at hdisj
  · intro q'
    by_cases hq : q = q'
    · subst hq
      simp [h.fifo q, hl]
    · simpa [update_of_ne (Ne.symm hq)] using h.fifo q'
  · intro q'
    have hc := h.counted q'
    simp only [QueueCtx.passed, hcalls, countP_middle, unposted] at hc ⊢
    by_cases hq : q = q'
    · subst hq
      simp [hl] at hc ⊢
      omega
    · simpa [hq, update_of_ne (Ne.symm hq)] using hc
  · exact h.mutex_replace hcalls fun _ => by simp [holding, unposted]
  · exact h.once_replace hcalls fun _ => rfl
  · exact IsCall.replace (hcalls ▸ h.calls) .done

/-- A call that begins stands before its first step. -/
lemma begin (h : QueueInv head c l) {call : List (QueueOp A)} {issued : List A} (hcall : IsCall call)
    (hbefore : ∀ q, call ≠ [.takeFirst q] ∧ holding q call = false)
    (hissued : ∀ rq, (if rq ∈ c.issued then 1 else 0) + (if carrying rq call then 1 else 0) ≤
      if rq ∈ issued then 1 else 0)
    (hheads : ∀ q, head q ∉ issued) :
    QueueInv head { c with calls := c.calls ++ [call], issued := issued } l where
  ring := h.ring
  fifo := h.fifo
  counted q := by
    have hc := h.counted q
    have hunposted : unposted q call = false := by
      have hhold := (hbefore q).2
      rw [holding, Bool.or_eq_false_iff] at hhold
      exact hhold.1
    simpa [QueueCtx.passed, hunposted, (hbefore q).1] using hc
  mutex q := by
    have hm := h.mutex q
    simpa [(hbefore q).2] using hm
  once rq := by
    have ho := h.once rq
    have hi := hissued rq
    simp only [List.countP_append, List.countP_singleton]
    omega
  heads := hheads
  calls := by
    intro call' hmem
    cases List.mem_append.mp hmem with
    | inl hm => exact h.calls call' hm
    | inr hm => exact List.mem_singleton.mp hm ▸ hcall

lemma dequeue (h : QueueInv head c l) (q : RequestQueue) :
    QueueInv head { c with calls := c.calls ++ [dequeueCall q] } l := by
  have hcall : dequeueCall q = ([.semWait q, .takeFirst q] : List (QueueOp A)) := by cases q <;> rfl
  rw [hcall]
  apply h.begin (.dequeue q)
  · intro q'
    simp [holding, unposted]
  · intro rq
    simp [carrying]
  · exact h.heads

lemma enqueue {rq : A} (h : QueueInv head c l) (q : RequestQueue) (hfresh : rq ∉ c.issued)
    (hhead : ∀ q, rq ≠ head q) :
    QueueInv head { c with calls := c.calls ++ [enqueueCall q rq], issued := c.issued ++ [rq] } l := by
  have hcall : enqueueCall q rq = [.initHead rq, .lockAndLink q rq, .semPost q, .unlock q] := by
    cases q <;> rfl
  rw [hcall]
  apply h.begin (.enqueue q rq)
  · intro q'
    simp [holding, unposted]
  · intro rq'
    by_cases hrq : rq = rq'
    · subst hrq
      simp [carrying, hfresh]
    · simp [carrying, hrq, Ne.symm hrq]
  · intro q' hmem
    cases List.mem_append.mp hmem with
    | inl hm => exact h.heads q' hm
    | inr hm => exact hhead q' (List.mem_singleton.mp hm).symm

lemma exec_run (h : QueueInv head c l) (hinj : Injective head) {op : QueueOp A} {rest : List (QueueOp A)}
    {c₁ : QueueCtx A} (hcalls : c.calls = l₁ ++ (op :: rest) :: l₂) (hexec : op.exec head c = some c₁) :
    ∃ l', QueueInv head { c₁ with calls := l₁ ++ rest :: l₂ } l' := by
  have hcall : IsCall (op :: rest) := h.calls _ (by simp [hcalls])
  cases hcall with
  | dequeue q =>
    simp only [QueueOp.exec] at hexec
    split at hexec
    · cases hexec
    · rename_i hpos
      cases hexec
      exact ⟨l, h.semWait hcalls hpos⟩
  | passed q =>
    obtain ⟨rq, rest, links, -, hfirst, hdel, hinv⟩ := h.takeFirst hinj hcalls
    simp only [QueueOp.exec, hfirst] at hexec
    split at hexec
    · cases hexec
    · simp only [Option.bind_eq_bind, Option.bind_some, hdel] at hexec
      cases hexec
      exact ⟨_, hinv⟩
  | enqueue q rq =>
    cases hexec
    exact ⟨l, h.initHead hcalls⟩
  | linking q rq =>
    simp only [QueueOp.exec] at hexec
    split at hexec
    · cases hexec
    · rename_i hlock
      obtain ⟨links, hadd, hinv⟩ := h.lockAndLink hinj hcalls (eq_false_of_ne_true hlock)
      simp only [Option.bind_eq_bind, Option.bind_some, hadd] at hexec
      cases hexec
      exact ⟨_, hinv⟩
  | posting q =>
    cases hexec
    exact ⟨l, h.semPost hcalls⟩
  | unlocking q =>
    cases hexec
    exact ⟨l, h.unlock hcalls⟩

lemma step (h : QueueInv head c l) (hinj : Injective head) {e : QueueEvent A}
    (hstep : c.step head e = some c') : ∃ l', QueueInv head c' l' := by
  cases e with
  | dequeue q =>
    cases hstep
    exact ⟨l, h.dequeue q⟩
  | enqueue q rq =>
    simp only [QueueCtx.step] at hstep
    split at hstep
    · cases hstep
    · rename_i hfresh
      cases hstep
      simp only [not_or] at hfresh
      refine ⟨l, h.enqueue q hfresh.1 ?_⟩
      intro q'
      cases q' with
      | md => exact hfresh.2.1
      | rw => exact hfresh.2.2
  | run i =>
    simp only [QueueCtx.step] at hstep
    split at hstep
    · rename_i op rest hi
      obtain ⟨c₁, hexec, hset⟩ := Option.bind_eq_some_iff.mp hstep
      cases hset
      obtain ⟨hlt, hget⟩ := List.getElem?_eq_some_iff.mp hi
      obtain ⟨l₁, l₂, hcalls, -, hset⟩ : ∃ l₁ l₂, c.calls = l₁ ++ c.calls[i] :: l₂ ∧ l₁.length = i ∧
          c.calls.set i rest = l₁ ++ rest :: l₂ := List.exists_of_set hlt
      rw [hget] at hcalls
      rw [hset]
      exact h.exec_run hinj hcalls hexec
    · cases hstep

lemma init (hinj : Injective head) (links : Links A) :
    QueueInv head (initNfsclientQueues head links) fun _ => [] where
  ring q := by
    have hne : head .md ≠ head .rw := hinj.ne (by decide)
    cases q with
    | md => exact (Links.Ring.of_init links (head .md)).init_other (by simp [Ne.symm hne])
    | rw => exact Links.Ring.of_init _ (head .rw)
  fifo _ := rfl
  counted _ := rfl
  mutex _ := rfl
  once _ := Nat.zero_le _
  heads _ := List.not_mem_nil
  calls _ h := nomatch h

lemma runEvents (hinj : Injective head) {es : List (QueueEvent A)} (h : QueueInv head c l)
    (hrun : c.runEvents head es = some c') : ∃ l', QueueInv head c' l' := by
  induction es generalizing c l with
  | nil =>
    cases hrun
    exact ⟨l, h⟩
  | cons e es ih =>
    obtain ⟨c₁, hstep, hrest⟩ := Option.bind_eq_some_iff.mp hrun
    obtain ⟨l₁, h₁⟩ := h.step hinj hstep
    exact ih h₁ hrest

/-- Outside the locked sections nothing is linked that is not posted. -/
lemma counted_unlocked (h : QueueInv head c l) (hlock : c.locked q = false) :
    c.notify q + c.passed q = (l q).length := by
  have hc := h.counted q
  have hm := h.mutex q
  rw [hlock, if_neg Bool.false_ne_true] at hm
  have hle : c.calls.countP (unposted q) ≤ c.calls.countP (holding q) := by
    apply List.countP_mono_left
    intro call _ hun
    rw [holding, hun, Bool.true_or]
  omega

/-- No request is returned twice, nor from both queues. -/
lemma returned_nodup (h : QueueInv head c l) : (c.returned .md ++ c.returned .rw).Nodup := by
  have hcount : ∀ q rq, (c.returned q).count rq ≤ (c.linked q).count rq := by
    intro q rq
    rw [h.fifo q, List.count_append]
    exact Nat.le_add_right _ _
  rw [List.nodup_iff_count_le_one]
  intro rq
  have ho := h.once rq
  have hmd := hcount .md rq
  have hrw := hcount .rw rq
  rw [List.count_append]
  split at ho <;> omega

/-- A dequeue call that enters its locked section returns the first request. -/
lemma takes (h : QueueInv head c l) (hinj : Injective head) {i : Nat}
    (hi : c.calls[i]? = some [.takeFirst q]) (hlock : c.locked q = false) :
    ∃ rq rest c', l q = rq :: rest ∧ rq ≠ head q ∧ c.step head (.run i) = some c' ∧
      c'.returned q = c.returned q ++ [rq] := by
  obtain ⟨hlt, hget⟩ := List.getElem?_eq_some_iff.mp hi
  obtain ⟨l₁, l₂, hcalls, -, -⟩ : ∃ l₁ l₂, c.calls = l₁ ++ c.calls[i] :: l₂ ∧ l₁.length = i ∧
      c.calls.set i [] = l₁ ++ [] :: l₂ := List.exists_of_set hlt
  rw [hget] at hcalls
  obtain ⟨rq, rest, links, hl, hfirst, hdel, -⟩ := h.takeFirst hinj hcalls
  have hrq : rq ≠ head q := by
    have hnd := (h.ring q).nodup
    rw [hl] at hnd
    exact fun e => (List.nodup_cons.mp hnd).1 (e ▸ List.mem_cons_self)
  have hexec : (QueueOp.takeFirst q).exec head c =
      some { c with links := links, returned := update c.returned q (c.returned q ++ [rq]) } := by
    simp only [QueueOp.exec, hlock, Bool.false_eq_true, if_false, hfirst, Option.bind_eq_bind,
      Option.bind_some, hdel]
  have hstep : c.step head (.run i) = some { c with
      links := links
      returned := update c.returned q (c.returned q ++ [rq])
      calls := c.calls.set i [] } := by
    simp only [QueueCtx.step, hi, hexec, Option.bind_eq_bind, Option.bind_some]
  exact ⟨rq, rest, _, hl, hrq, hstep, update_self ..⟩

end QueueInv

/-!
## What the queues are asked for

A request an enqueue function is called with is linked into the queue of that function, or the call
still has to do so; a dequeue function takes a request out of its own queue, or still has to.
-/

def enqueueOf? (q : RequestQueue) : QueueEvent A → Option A
  | .enqueue q' rq => if q' = q then some rq else none
  | _ => none

def isDequeue (q : RequestQueue) : QueueEvent A → Bool
  | .dequeue q' => q' = q
  | _ => false

def linkOf? (q : RequestQueue) : QueueOp A → Option A
  | .lockAndLink q' rq => if q' = q then some rq else none
  | _ => none

def isTake (q : RequestQueue) : QueueOp A → Bool
  | .takeFirst q' => q' = q
  | _ => false

/-- The requests that the enqueue function of this queue is called with. -/
def requested (q : RequestQueue) (es : List (QueueEvent A)) : List A := es.filterMap (enqueueOf? q)

/-- How often the dequeue function of this queue is called. -/
def dequeued (q : RequestQueue) (es : List (QueueEvent A)) : Nat := es.countP (isDequeue q)

/-- The requests that calls under way have still to link into this queue. -/
def carried (c : QueueCtx A) (q : RequestQueue) : List A := c.calls.flatten.filterMap (linkOf? q)

/-- The calls under way that have still to take a request out of this queue. -/
def unserved (c : QueueCtx A) (q : RequestQueue) : Nat := c.calls.flatten.countP (isTake q)

/-- What is linked and returned in one step. -/
lemma exec_logs {op : QueueOp A} (h : op.exec head c = some c') (q : RequestQueue) :
    c'.linked q = c.linked q ++ [op].filterMap (linkOf? q) ∧
      (c'.returned q).length = (c.returned q).length + [op].countP (isTake q) := by
  cases op with
  | semWait q' =>
    simp only [QueueOp.exec] at h
    split at h
    · cases h
    · cases h
      simp [linkOf?, isTake]
  | takeFirst q' =>
    simp only [QueueOp.exec] at h
    split at h
    · cases h
    obtain ⟨elem, -, h⟩ := Option.bind_eq_some_iff.mp h
    obtain ⟨links, -, h⟩ := Option.bind_eq_some_iff.mp h
    cases h
    by_cases hq : q' = q
    · subst hq
      simp [linkOf?, isTake]
    · simp [linkOf?, isTake, hq, update_of_ne (Ne.symm hq)]
  | lockAndLink q' rq =>
    simp only [QueueOp.exec] at h
    split at h
    · cases h
    obtain ⟨links, -, h⟩ := Option.bind_eq_some_iff.mp h
    cases h
    by_cases hq : q' = q
    · subst hq
      simp [linkOf?, isTake]
    · simp [linkOf?, isTake, hq, update_of_ne (Ne.symm hq)]
  | initHead rq =>
    cases h
    simp [linkOf?, isTake]
  | semPost q' =>
    cases h
    simp [linkOf?, isTake]
  | unlock q' =>
    cases h
    simp [linkOf?, isTake]

omit [DecidableEq A] in
lemma dequeueCall_ops (q q' : RequestQueue) :
    (dequeueCall q').filterMap (linkOf? q) = ([] : List A) ∧
      (dequeueCall q' : List (QueueOp A)).countP (isTake q) = dequeued q [(.dequeue q' : QueueEvent A)] := by
  cases q <;> cases q' <;> exact ⟨rfl, rfl⟩

omit [DecidableEq A] in
lemma enqueueCall_ops (q q' : RequestQueue) (rq : A) :
    (enqueueCall q' rq).filterMap (linkOf? q) = requested q [.enqueue q' rq] ∧
      (enqueueCall q' rq).countP (isTake q) = 0 := by
  cases q <;> cases q' <;> exact ⟨rfl, rfl⟩

lemma step_requested {e : QueueEvent A} (h : c.step head e = some c') (q : RequestQueue) :
    (c'.linked q ++ carried c' q).Perm (c.linked q ++ carried c q ++ requested q [e]) ∧
      (c'.returned q).length + unserved c' q = (c.returned q).length + unserved c q + dequeued q [e] := by
  cases e with
  | dequeue q' =>
    cases h
    obtain ⟨hlink, htake⟩ := dequeueCall_ops (A := A) q q'
    simp only [carried, unserved, List.flatten_append, List.flatten_singleton, List.filterMap_append,
      List.countP_append, hlink, htake, List.append_nil, Nat.add_assoc, and_true]
    exact .of_eq (List.append_nil _).symm
  | enqueue q' rq =>
    simp only [QueueCtx.step] at h
    split at h
    · cases h
    cases h
    obtain ⟨hlink, htake⟩ := enqueueCall_ops q q' rq
    simp only [carried, unserved, List.flatten_append, List.flatten_singleton, List.filterMap_append,
      List.countP_append, hlink, htake, Nat.add_zero, List.append_assoc]
    exact ⟨.refl _, rfl⟩
  | run i =>
    simp only [QueueCtx.step] at h
    split at h
    · rename_i op rest hi
      obtain ⟨c₁, hexec, hset⟩ := Option.bind_eq_some_iff.mp h
      cases hset
      obtain ⟨hlt, hget⟩ := List.getElem?_eq_some_iff.mp hi
      obtain ⟨l₁, l₂, hcalls, -, hset⟩ : ∃ l₁ l₂, c.calls = l₁ ++ c.calls[i] :: l₂ ∧ l₁.length = i ∧
          c.calls.set i rest = l₁ ++ rest :: l₂ := List.exists_of_set hlt
      rw [hget] at hcalls
      obtain ⟨hlinked, hreturned⟩ := exec_logs hexec q
      have hops : c.calls.flatten.Perm ([op] ++ (l₁ ++ rest :: l₂).flatten) := by
        rw [hcalls]
        simp
      unfold carried unserved
      constructor
      · have hmoved := (hops.filterMap (linkOf? q)).symm
        rw [List.filterMap_append] at hmoved
        change (c₁.linked q ++ (c.calls.set i rest).flatten.filterMap (linkOf? q)).Perm _
        rw [hset, hlinked, List.append_assoc, List.append_assoc]
        refine List.Perm.append_left _ (hmoved.trans ?_)
        exact .of_eq (List.append_nil _).symm
      · have hcount := hops.countP_eq (isTake q)
        rw [List.countP_append] at hcount
        change (c₁.returned q).length + (c.calls.set i rest).flatten.countP (isTake q) = _
        rw [hset, hreturned, hcount]
        change _ = _ + 0
        omega
    · cases h

lemma runEvents_requested {es : List (QueueEvent A)} (h : c.runEvents head es = some c') (q : RequestQueue) :
    (c'.linked q ++ carried c' q).Perm (c.linked q ++ carried c q ++ requested q es) ∧
      (c'.returned q).length + unserved c' q = (c.returned q).length + unserved c q + dequeued q es := by
  induction es generalizing c with
  | nil =>
    cases h
    simp [requested, dequeued]
  | cons e es ih =>
    obtain ⟨c₁, hstep, hrest⟩ := Option.bind_eq_some_iff.mp h
    obtain ⟨hperm, hcount⟩ := step_requested hstep q
    obtain ⟨hperm', hcount'⟩ := ih hrest
    have hreq : requested q ([e] ++ es) = requested q [e] ++ requested q es := List.filterMap_append
    have hdeq : dequeued q ([e] ++ es) = dequeued q [e] + dequeued q es := List.countP_append
    rw [List.singleton_append] at hreq hdeq
    constructor
    · rw [hreq, ← List.append_assoc]
      exact hperm'.trans (hperm.append_right _)
    · omega

/-- A request that is linked into one queue is not asked for in the other. -/
lemma QueueInv.carried_disjoint {l : RequestQueue → List A} (h : QueueInv head c l) {q' : RequestQueue} {rq : A}
    (hrq : rq ∈ c.linked q) : rq ∉ carried c q' := by
  intro hmem
  obtain ⟨op, hop, hlink⟩ := List.mem_filterMap.mp hmem
  obtain ⟨call, hcall, hop⟩ := List.mem_flatten.mp hop
  obtain rfl : op = .lockAndLink q' rq := by
    cases op with
    | lockAndLink p rq' =>
      simp only [linkOf?, Option.ite_none_right_eq_some, Option.some.injEq] at hlink
      rw [hlink.1, hlink.2]
    | _ => cases hlink
  have hcarry : carrying rq call = true := by
    have hrest := h.calls call hcall
    cases hrest <;> simp_all [carrying]
  have hpos : 0 < c.calls.countP (carrying rq) := List.countP_pos_iff.mpr ⟨call, hcall, hcarry⟩
  have hlinked := List.count_pos_iff.mpr hrq
  have ho := h.once rq
  split at ho
  · cases q <;> omega
  · omega

/-- In every state that any calls reach in any order, for both queues: the semaphore and the dequeue
calls that have passed it count the list, a dequeue call takes out a request and not the head, and the
requests returned are the first ones linked in, each once and from its own queue. What is linked into
a queue or on its way there is what its enqueue function was called with, and every call of its dequeue
function has returned a request or is still under way. -/
theorem request_queues_lossless (hinj : Injective head) {links : Links A} {es : List (QueueEvent A)}
    (hrun : (initNfsclientQueues head links).runEvents head es = some c) :
    ∃ l : RequestQueue → List A,
      (∀ q, c.links.Ring (head q) (l q)) ∧
      (∀ q, c.locked q = false → c.notify q + c.passed q = (l q).length) ∧
      (∀ q i, c.calls[i]? = some [.takeFirst q] → c.locked q = false →
        ∃ rq rest c', l q = rq :: rest ∧ rq ≠ head q ∧ c.step head (.run i) = some c' ∧
          c'.returned q = c.returned q ++ [rq]) ∧
      (∀ q, c.linked q = c.returned q ++ l q) ∧
      (∀ q, (requested q es).Perm (c.linked q ++ carried c q)) ∧
      (∀ q, dequeued q es = (c.returned q).length + unserved c q) ∧
      (c.returned .md ++ c.returned .rw).Nodup ∧
      ∀ q q', q ≠ q' → ∀ rq ∈ c.returned q, (rq ∈ c.linked q ∧ rq ∉ c.linked q') ∧
        rq ∈ requested q es ∧ rq ∉ requested q' es := by
  obtain ⟨l, h⟩ := (QueueInv.init hinj links).runEvents hinj hrun
  have hperm : ∀ q, (requested q es).Perm (c.linked q ++ carried c q) := fun q =>
    (runEvents_requested hrun q).1.symm
  refine ⟨l, h.ring, ?_, ?_, h.fifo, hperm, ?_, h.returned_nodup, ?_⟩
  · intro q hlock
    exact h.counted_unlocked hlock
  · intro q i hi hlock
    exact h.takes hinj hi hlock
  · intro q
    have hcount := (runEvents_requested hrun q).2
    simpa [initNfsclientQueues, unserved] using hcount.symm
  · intro q q' hq rq hrq
    have hlinked : rq ∈ c.linked q := by
      rw [h.fifo q]
      exact List.mem_append_left _ hrq
    have hother := h.linked_disjoint hq hlinked
    refine ⟨⟨hlinked, hother⟩, (hperm q).mem_iff.mpr (List.mem_append_left _ hlinked), ?_⟩
    intro hmem
    rcases List.mem_append.mp ((hperm q').mem_iff.mp hmem) with hmem | hmem
    · exact hother hmem
    · exact h.carried_disjoint hlinked hmem

/-- The list heads at 0 and 1. -/
def twoHeads : RequestQueue → Nat
  | .md => 0
  | .rw => 1

/-- A dequeue call passes `sem_wait` while the enqueue call still holds the mutex. A request for the
other queue is on its way. -/
def handOver : List (QueueEvent Nat) :=
  [.enqueue .md 5, .dequeue .md, .enqueue .rw 6, .run 0, .run 0, .run 0, .run 1, .run 2, .run 0]

/-- The state that `handOver` leads to. -/
lemma handOver_runs : ∃ c,
    (initNfsclientQueues twoHeads ⟨fun _ => none, fun _ => none⟩).runEvents twoHeads handOver = some c ∧
      c.calls[1]? = some [.takeFirst .md] ∧ c.locked .md = false ∧ c.notify .md + c.passed .md = 1 ∧
      c.returned .md = [] := by
  have hrun : ((initNfsclientQueues twoHeads ⟨fun _ => none, fun _ => none⟩).runEvents twoHeads handOver).map
      (fun c => decide (c.calls[1]? = some [.takeFirst .md] ∧ c.locked .md = false ∧
        c.notify .md + c.passed .md = 1 ∧ c.returned .md = [])) = some true := by
    decide +kernel
  obtain ⟨c, hc, hfacts⟩ := Option.map_eq_some_iff.mp hrun
  exact ⟨c, hc, of_decide_eq_true hfacts⟩

theorem request_queues_lossless_handOver :
    ∃ c, (initNfsclientQueues twoHeads ⟨fun _ => none, fun _ => none⟩).runEvents twoHeads handOver = some c ∧
      c.notify .md + c.passed .md = 1 ∧ ([6] : List Nat).Perm (c.linked .rw ++ carried c .rw) ∧
      ∃ rq c', rq ≠ twoHeads .md ∧ c.step twoHeads (.run 1) = some c' ∧ c'.returned .md = [rq] := by
  have hinj : Injective twoHeads := by
    intro q q' h
    cases q <;> cases q' <;> first | rfl | cases h
  obtain ⟨c, hrun, hcall, hlock, hcount, hret⟩ := handOver_runs
  obtain ⟨l, -, -, htakes, -, hperm, -⟩ := request_queues_lossless hinj hrun
  obtain ⟨rq, rest, c', -, hrq, hstep, hret'⟩ := htakes .md 1 hcall hlock
  rw [hret, List.nil_append] at hret'
  exact ⟨c, hrun, hcount, hperm .rw, rq, c', hrq, hstep, hret'⟩

end UnfsClient.Proofs
