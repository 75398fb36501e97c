import UnfsClient.Nfs3Free
import UnfsClient.Proofs.StaleMemory

/-!
# Every decoded block is freed

The blocks a wrapper allocates are a ledger that `free_T` has to empty. A pair balances on a message
that is decoded when the pointers it frees are, up to their order, all that can have been allocated,
which for a list is proved node by node. On a message that is not decoded the wrapper frees the
structure only, and the pair balances when the routine had allocated nothing.
-/

namespace UnfsClient.Proofs

open Lib

section Pair

variable (w : FreePair) (m : Memory Member) (msg : Bytes) (len : Int)

/-- The routine succeeds with `v`. -/
def DecodesTo (v : w.call.Val) : Prop := ∃ r, (w.call.runIn m msg len).outcome = .done v r

/-- The routine does not fail, or it fails before it allocates. -/
def RefusedEarly : Prop := (w.call.runIn m msg len).outcome = .failed → w.routineLedger m msg len = []

/-- `free_T` on the pointer to `v` empties the ledger. -/
def Freed (v : w.call.Val) : Prop := w.free m msg len (some v) (w.drawn m msg len) = some []

variable {w m msg len}

lemma balanced_iff :
    w.Balanced m msg len ↔ RefusedEarly w m msg len ∧ (w.call.runIn m msg len).outcome ≠ .undefined ∧
      ∀ v, DecodesTo w m msg len v → w.nonNull v = true ∧ Freed w m msg len v := by
  unfold FreePair.Balanced FreePair.remaining FreePair.xdrTo RefusedEarly DecodesTo
  cases (w.call.runIn m msg len).outcome with
  | failed => simp [Pointer.free, FreePair.drawn, FreePair.free]
  | undefined => simp
  | done v r =>
    have hdone : (∀ x, (∃ s, Outcome.done v r = .done x s) → w.nonNull x = true ∧ Freed w m msg len x) ↔
        w.nonNull v = true ∧ Freed w m msg len v := by
      constructor
      · intro h
        exact h v ⟨r, rfl⟩
      · rintro h x ⟨s, hs⟩
        cases hs
        exact h
    rw [hdone]
    by_cases hnull : w.nonNull v = true
    · simp [hnull, Freed]
    · simp [hnull, FreePair.free, FreePair.drawn]

/-- A wrapper that sets every pointer before it is read. -/
lemma balanced_iff_of_reads (hreads : w.call.xdr.reads ⊆ w.call.nulls) {P : w.call.Val → Prop}
    (hP : ∀ v, DecodesTo w m msg len v → (w.nonNull v = true ∧ Freed w m msg len v ↔ P v)) :
    w.Balanced m msg len ↔ RefusedEarly w m msg len ∧ ∀ v, DecodesTo w m msg len v → P v := by
  have hdefined : (w.call.runIn m msg len).outcome ≠ .undefined := by
    rw [runIn_cleared hreads]
    exact (w.call.xdr.zeroed [] _).defined
  rw [balanced_iff]
  refine and_congr_right fun _ => ?_
  rw [and_iff_right hdefined]
  exact forall_congr' fun v => forall_congr' fun hv => hP v hv

lemma balanced_iff_refusedEarly (hreads : w.call.xdr.reads ⊆ w.call.nulls)
    (hnonNull : ∀ v, w.nonNull v = true)
    (hfreed : ∀ v, DecodesTo w m msg len v → Freed w m msg len v) :
    w.Balanced m msg len ↔ RefusedEarly w m msg len := by
  rw [balanced_iff_of_reads hreads fun v hv => iff_true_intro ⟨hnonNull v, hfreed v hv⟩]
  exact and_iff_left fun _ _ => trivial

lemma refusedEarly_iff (hreads : w.call.xdr.reads ⊆ w.call.nulls) :
    RefusedEarly w m msg len ↔ (∃ v, DecodesTo w m msg len v) ∨ w.routineLedger m msg len = [] := by
  have hdecodes := w.call.xdr.zeroed [] (xdrmemCreate msg len)
  rw [← runIn_cleared hreads m] at hdecodes
  unfold RefusedEarly DecodesTo
  rw [hdecodes.2]
  cases w.call.codec.decode (xdrmemCreate msg len) with
  | none => simp [Outcome.ofOption]
  | some x => simp [Outcome.ofOption]

lemma isNull_of_mem {loc : List Member} (h : loc ∈ w.call.nulls) : w.isNull m loc = true := by
  simp [FreePair.isNull, Memory.clear, h]

lemma isNull_of_inNode {loc : List Member} (h : inNode loc = true) : w.isNull m loc = true := by
  simp [FreePair.isNull, h]

section Freeing

variable {v : w.call.Val} {frees locs : List (List Member)} (hv : w.frees v = frees)
  (hperm : frees.Perm ([] :: locs)) (hnodup : frees.Nodup) (hnull : ∀ loc ∈ locs, w.isNull m loc = true)

include hv

lemma Freed.subset (h : Freed w m msg len v) : w.drawn m msg len ⊆ frees :=
  hv ▸ (Pointer.of_freeAll_stored h).1

lemma Freed.drawn_or_null (h : Freed w m msg len v) {loc : List Member} (hloc : loc ∈ frees) :
    loc ∈ w.drawn m msg len ∨ w.isNull m loc = true :=
  (Pointer.of_freeAll_stored h).2 loc (hv ▸ hloc)

include hperm hnodup hnull

/-- The pointers freed are all that can have been allocated. -/
lemma freed_of_sublist (hdrawn : (w.routineLedger m msg len).Sublist locs) : Freed w m msg len v := by
  have hsub : (w.drawn m msg len).Sublist ([] :: locs) := hdrawn.cons_cons []
  change Pointer.freeAll (w.drawn m msg len) ((w.frees v).map _) = some []
  rw [hv]
  refine Pointer.freeAll_stored (hsub.nodup (hperm.nodup_iff.mp hnodup)) hnodup
    (fun loc hloc => hperm.mem_iff.mpr (hsub.subset hloc)) fun loc hloc => ?_
  cases List.mem_cons.mp (hperm.mem_iff.mp hloc) with
  | inl htop => exact .inl (htop ▸ List.mem_cons_self)
  | inr hloc => exact .inr (hnull loc hloc)

/-- There is a block at `loc` unless nothing is kept there, and it is not freed. -/
lemma freed_iff_empty {blocks : List (List Member)} {loc : List Member} {empty : Prop} [Decidable empty]
    (hdrawn : w.routineLedger m msg len = blocks ++ if empty then [] else [loc])
    (hblocks : blocks.Sublist locs) (hloc : loc ∉ frees) : Freed w m msg len v ↔ empty := by
  by_cases hempty : empty
  · rw [if_pos hempty, List.append_nil] at hdrawn
    exact iff_of_true (freed_of_sublist hv hperm hnodup hnull (hdrawn ▸ hblocks)) hempty
  · rw [if_neg hempty] at hdrawn
    refine iff_of_false (fun h => hloc (h.subset hv (List.mem_cons_of_mem _ ?_))) hempty
    rw [hdrawn]
    exact List.mem_append_right _ List.mem_cons_self

end Freeing

lemma freed_of_nil {v : w.call.Val} (hv : w.frees v = [[]]) (hdrawn : w.routineLedger m msg len = []) :
    Freed w m msg len v :=
  freed_of_sublist hv (.refl _) (List.nodup_singleton _) (List.forall_mem_nil _) (hdrawn ▸ .slnil)

end Pair

/-!
## Pairs that free the same pointers always
-/

lemma const_freed {w : ConstFree} (hreads : w.call.xdr.reads ⊆ w.call.nulls)
    (hfrees : w.frees.Perm ([] :: w.call.xdr.reads)) (hnodup : w.frees.Nodup) (m : Memory Member)
    (msg : Bytes) (len : Int) (v : w.call.Val) : Freed w.pair m msg len v := by
  apply freed_of_sublist (w := w.pair) rfl hfrees hnodup fun loc hloc => isNull_of_mem (hreads hloc)
  rw [← w.same]
  exact w.routine.within _ _ _

lemma constFrees_locs : ∀ w ∈ constFrees, w.call.xdr.reads ⊆ w.call.nulls ∧
    w.frees.Perm ([] :: w.call.xdr.reads) ∧ w.frees.Nodup := by
  decide

/-!
## Results
-/

section Status

variable {Resok Resfail : Type} {resok : XdrProc Resok} {resfail : XdrProc Resfail}
  {m : Memory Member} {l : List Member} {b r : Bytes} {v : DiscUnion (StatusArm Resok Resfail)}

/-- A status that is decoded, and what is decoded after it. -/
lemma status_done {ok : InPlace Member resok.toCodec} {fail : InPlace Member resfail.toCodec}
    (h : ((xdrStatusIn ok fail).run m l b).outcome = .done v r) :
    ∃ s, xdrNfsstat3.decode b = some (v.disc, s) ∧
      ∀ a, resok? v = some a → (ok.run m (l ++ [.u, .resok]) s).outcome = .done a r := by
  obtain ⟨s, hdisc, harm⟩ := InPlace.union_done h
  exact ⟨s, hdisc, fun a ha => InPlace.select_done harm ha⟩

lemma resok_isSome (v : DiscUnion (StatusArm Resok Resfail)) : (resok? v).isSome = statusOk v.disc :=
  armTrue_isSome _ v.arm

end Status

lemma status_freed {w : StatusFree} (hfrees : w.frees = w.call.xdr.reads) (hnulls : w.frees ⊆ w.nulls)
    (hnodup : (w.frees ++ [[]]).Nodup) {m : Memory Member} {msg : Bytes} {len : Int} {v : w.call.Val}
    (h : DecodesTo w.pair m msg len v) : Freed w.pair m msg len v := by
  obtain ⟨r, hr⟩ := h
  obtain ⟨s, hdisc, -⟩ := status_done hr
  have hpair : w.pair.frees v = if statusOk v.disc = true then w.frees ++ [[]] else [[]] := rfl
  by_cases hok : statusOk v.disc = true
  · rw [if_pos hok] at hpair
    apply freed_of_sublist hpair (List.perm_append_singleton _ _) hnodup
      fun loc hloc => isNull_of_mem (hnulls hloc)
    rw [hfrees]
    exact (xdrStatusDrawn w.resfail w.ok).within _ _ _
  · have hledger : w.pair.routineLedger m msg len = [] :=
      (Ledger.union_some hdisc _ _).trans (if_neg hok)
    rw [if_neg hok] at hpair
    exact freed_of_nil hpair hledger

lemma statusFrees_locs : ∀ w ∈ statusFrees, w.frees = w.call.xdr.reads ∧ w.frees ⊆ w.nulls ∧
    (w.frees ++ [[]]).Nodup := by
  decide

/-!
## Directory listings
-/

lemma inNode_append {p q : List Member} (hp : p.any Member.toNode = true) (hq : q ≠ []) :
    inNode (p ++ q) = true := by
  rw [inNode, List.dropLast_append_of_ne_nil hq, List.any_append, hp, Bool.true_or]

section Listing

variable {α : Type} {p : XdrProc α} {node : Drawn Member p.toCodec}

lemma listing_freed {w : FreePair} (hnulls : entriesLoc ∈ w.call.nulls) (locs : List (List Member))
    (hlocs : locs.Perm ([] :: node.reads)) (hnodup : locs.Nodup)
    (hnext : ∀ q ∈ locs, ¬ [Member.nextentry] <+: q) {m : Memory Member} {msg : Bytes} {len : Int}
    {v : w.call.Val} {entries : List α}
    (hblocks : (w.routineLedger m msg len).Sublist
      ((nodeReads node [.nextentry] entries).map (entriesLoc ++ ·)))
    (hfrees : w.frees v = (nodeLocs (fun _ => locs) [.nextentry] entries).map (entriesLoc ++ ·) ++ [[]]) :
    Freed w m msg len v := by
  refine freed_of_sublist hfrees ?_ ?_ ?_ hblocks
  · exact (List.perm_append_singleton _ _).trans (((nodeLocs_perm hlocs _ entries).map _).cons _)
  · have hmap := (nodeLocs_nodup hnodup hnext entries).map (List.append_right_injective entriesLoc)
    refine List.nodup_append.mpr ⟨hmap, List.nodup_singleton _, ?_⟩
    intro q hq q' hq' heq
    obtain ⟨q'', -, rfl⟩ := List.mem_map.mp hq
    rw [List.mem_singleton.mp hq'] at heq
    cases heq
  · intro q hq
    obtain ⟨q', -, rfl⟩ := List.mem_map.mp hq
    by_cases hnil : q' = []
    · subst hnil
      exact isNull_of_mem hnulls
    · exact isNull_of_inNode (inNode_append rfl hnil)

/-- A listing is there for `NFS3_OK` only. -/
lemma listing_ledger {Resok Resfail : Type} {resok : XdrProc Resok} {resfail : XdrProc Resfail}
    {ok : InPlace Member resok.toCodec} {fail : InPlace Member resfail.toCodec} {d : Ledger Member}
    {entries : Resok → List α}
    (hd : ∀ {m l b a r}, (ok.run m l b).outcome = .done a r →
      (d m l b).Sublist ((nodeReads node [.nextentry] (entries a)).map ([.reply, .entries] ++ ·)))
    {m : Memory Member} {b r : Bytes} {v : DiscUnion (StatusArm Resok Resfail)}
    (h : ((xdrStatusIn ok fail).run m [] b).outcome = .done v r) :
    (Ledger.union xdrNfsstat3 statusOk (d.member [.u, .resok]) m [] b).Sublist
      ((nodeReads node [.nextentry] ((resok? v).elim [] entries)).map (entriesLoc ++ ·)) := by
  obtain ⟨s, hdisc, hresok⟩ := status_done h
  rw [Ledger.union_some hdisc, ← resok_isSome]
  cases hv : resok? v with
  | none => exact List.nil_sublist _
  | some a =>
    have hblocks := (hd (hresok a hv)).map ([Member.u, Member.resok] ++ ·)
    rw [List.map_map] at hblocks
    exact hblocks

end Listing

/-- The blocks of a listing are those of its entries. -/
lemma readdir_ledger {m : Memory Member} {l : List Member} {b r : Bytes} {v : READDIR3resok}
    (h : (xdrREADDIR3resokIn.run m l b).outcome = .done v r) :
    (xdrREADDIR3resokLedger m l b).Sublist
      ((nodeReads xdrEntry3Drawn [.nextentry] v.reply.entries).map ([.reply, .entries] ++ ·)) := by
  obtain ⟨f, reply, s, hhead, hreply, rfl⟩ := InPlace.field_done h
  have hledger : xdrREADDIR3resokLedger m l b = xdrDirlist3Ledger.member [.reply] m l s :=
    Ledger.andThen_done hhead _ _ _
  obtain ⟨f₁, cookieverf, s₁, hf₁, -, rfl⟩ := InPlace.field_done hhead
  obtain ⟨f₂, attributes, s₂, hf₂, -, rfl⟩ := InPlace.field_done hf₁
  cases hf₂
  obtain ⟨g, eof, t, hentries, -, rfl⟩ := InPlace.field_done hreply
  obtain ⟨g₁, entries, t₁, hg₁, hchain, rfl⟩ := InPlace.field_done hentries
  cases hg₁
  have hblocks := chainFuel_within xdrEntry3Drawn _ _ _ _ _ _ hchain
  rw [hledger, Ledger.member, xdrDirlist3Ledger, Ledger.member, List.map_map]
  exact hblocks.map _

lemma readdirplus_ledger {m : Memory Member} {l : List Member} {b r : Bytes} {v : READDIRPLUS3resok}
    (h : (xdrREADDIRPLUS3resokIn.run m l b).outcome = .done v r) :
    (xdrREADDIRPLUS3resokLedger m l b).Sublist
      ((nodeReads xdrEntryplus3Drawn [.nextentry] v.reply.entries).map ([.reply, .entries] ++ ·)) := by
  obtain ⟨f, reply, s, hhead, hreply, rfl⟩ := InPlace.field_done h
  have hledger : xdrREADDIRPLUS3resokLedger m l b = xdrDirlistplus3Ledger.member [.reply] m l s :=
    Ledger.andThen_done hhead _ _ _
  obtain ⟨f₁, cookieverf, s₁, hf₁, -, rfl⟩ := InPlace.field_done hhead
  obtain ⟨f₂, attributes, s₂, hf₂, -, rfl⟩ := InPlace.field_done hf₁
  cases hf₂
  obtain ⟨g, eof, t, hentries, -, rfl⟩ := InPlace.field_done hreply
  obtain ⟨g₁, entries, t₁, hg₁, hchain, rfl⟩ := InPlace.field_done hentries
  cases hg₁
  have hblocks := chainFuel_within xdrEntryplus3Drawn _ _ _ _ _ _ hchain
  rw [hledger, Ledger.member, xdrDirlistplus3Ledger, Ledger.member, List.map_map]
  exact hblocks.map _

lemma readdir_freed {m : Memory Member} {msg : Bytes} {len : Int} {v : READDIR3res}
    (h : DecodesTo freeREADDIR3res m msg len v) : Freed freeREADDIR3res m msg len v := by
  obtain ⟨r, hr⟩ := h
  have hblocks : (freeREADDIR3res.routineLedger m msg len).Sublist _ := listing_ledger readdir_ledger hr
  apply listing_freed List.mem_cons_self [[.name], []] (by decide) (by decide) (by decide) hblocks
  change (resok? v).elim _ _ ++ _ = _
  cases resok? v with
  | none => rfl
  | some a => rfl

lemma readdirplus_freed {m : Memory Member} {msg : Bytes} {len : Int} {v : READDIRPLUS3res}
    (h : DecodesTo freeREADDIRPLUS3res m msg len v) : Freed freeREADDIRPLUS3res m msg len v := by
  obtain ⟨r, hr⟩ := h
  have hblocks : (freeREADDIRPLUS3res.routineLedger m msg len).Sublist _ :=
    listing_ledger readdirplus_ledger hr
  apply listing_freed List.mem_cons_self [[.name], [.nameHandle, .u, .handle, .data, .dataVal], []]
    (by decide) (by decide) (by decide) hblocks
  change (resok? v).elim _ _ ++ _ = _
  cases resok? v with
  | none => rfl
  | some a => rfl

/-!
## MOUNT
-/

lemma mountlist_freed {m : Memory Member} {msg : Bytes} {len : Int} {v : Mountlist}
    (h : DecodesTo freeMountlist m msg len v) (hv : v ≠ []) : Freed freeMountlist m msg len v := by
  obtain ⟨r, hr⟩ := h
  obtain ⟨mb, rest, rfl⟩ := List.exists_cons_of_ne_nil hv
  have hblocks := link_within xdrMountbodyDrawn (chainFuel_within xdrMountbodyDrawn _) hr hv
  have hlocs : [[Member.mlHostname], [Member.mlDirectory], []].Perm ([] :: xdrMountbodyDrawn.reads) := by
    decide
  refine freed_of_sublist (w := freeMountlist) rfl (nodeLocs_perm hlocs [.mlNext] (mb :: rest)) ?_ ?_
    (List.cons_sublist_cons.mp hblocks)
  · exact nodeLocs_nodup (by decide) (by decide) _
  · intro q hq
    cases List.mem_append.mp hq with
    | inl hq => exact isNull_of_mem ((by decide : xdrMountbodyDrawn.reads ⊆ xdrToMountlistIn.nulls) hq)
    | inr hq =>
      obtain ⟨q', -, rfl⟩ := List.mem_map.mp hq
      by_cases hnil : q' = []
      · subst hnil
        exact isNull_of_mem (by decide : [Member.mlNext] ∈ xdrToMountlistIn.nulls)
      · exact isNull_of_inNode (inNode_append rfl hnil)

/-- `free_exports` never frees the structure. -/
lemma exports_not_freed (m : Memory Member) (msg : Bytes) (len : Int) (v : Exports) :
    ¬ Freed freeExports m msg len v := by
  intro h
  refine nil_notMem_nodeLocs (fun en => ?_) (List.cons_ne_nil _ _) v (h.subset rfl List.mem_cons_self)
  simp

/-- The buffer of the handle may be allocated, and that of the flavors is when there are any. -/
lemma mountinfo_ledger {m : Memory Member} {l : List Member} {b r : Bytes} {info : Mountres3Ok}
    (h : (xdrMountres3OkDrawn.run m l b).outcome = .done info r) :
    ∃ fh, fh.Sublist [[Member.fhandle, Member.fhandle3Val]] ∧ xdrMountres3OkDrawn.ledger m l b =
      fh ++ if info.authFlavors.1 = [] then [] else [[.authFlavors, .authFlavorsVal]] := by
  obtain ⟨f, flavors, s, hhead, hflavors, rfl, hledger⟩ := Drawn.field_done h
  obtain ⟨f₁, fhandle, s₁, hf₁, -, rfl, -⟩ := Drawn.field_done hhead
  cases hf₁
  refine ⟨_, ?_, hledger.trans (congrArg (_ ++ ·) (Ledger.array_done hflavors))⟩
  exact Drawn.within _ m l b

lemma mountres3_done {m : Memory Member} {b r : Bytes} {v : Mountres3}
    (h : (xdrMountres3In.run m [] b).outcome = .done v r) :
    ∃ s, xdrMountstat3.decode b = some (v.disc, s) ∧ ∀ info, mountinfo? v = some info →
      (xdrMountres3OkIn.run m [.u, .mountinfo] s).outcome = .done info r := by
  obtain ⟨s, hdisc, harm⟩ := InPlace.union_done h
  exact ⟨s, hdisc, fun info hinfo => InPlace.select_done harm hinfo⟩

lemma mntres3_freed_iff {m : Memory Member} {msg : Bytes} {len : Int} {v : Mountres3}
    (h : DecodesTo freeMntres3 m msg len v) :
    Freed freeMntres3 m msg len v ↔ ∀ info, mountinfo? v = some info → info.authFlavors.1 = [] := by
  obtain ⟨r, hr⟩ := h
  obtain ⟨s, hdisc, hinfo⟩ := mountres3_done hr
  have hunion : freeMntres3.routineLedger m msg len =
      if fhsStatusOk v.disc = true then xdrMountres3OkDrawn.ledger.member [.u, .mountinfo] _ [] s else [] :=
    Ledger.union_some hdisc _ _
  have hisSome : (mountinfo? v).isSome = fhsStatusOk v.disc := armTrue_isSome _ v.arm
  have hfrees : freeMntres3.frees v =
      if fhsStatusOk v.disc = true then [[.u, .mountinfo, .fhandle, .fhandle3Val], []] else [[]] := rfl
  rw [← hisSome] at hunion hfrees
  cases hv : mountinfo? v with
  | none =>
    rw [hv] at hunion hfrees
    exact iff_of_true (freed_of_nil hfrees hunion) nofun
  | some info =>
    rw [hv, Option.isSome_some, if_pos rfl] at hunion hfrees
    obtain ⟨fh, hfh, hledger⟩ := mountinfo_ledger (hinfo info hv)
    have hdrawn : freeMntres3.routineLedger m msg len = fh.map ([.u, .mountinfo] ++ ·) ++
        if info.authFlavors.1 = [] then [] else [[.u, .mountinfo, .authFlavors, .authFlavorsVal]] := by
      rw [hunion, Ledger.member, List.nil_append, hledger, List.map_append]
      split <;> rfl
    have hnulls : [[.u, .mountinfo, .fhandle, .fhandle3Val]] ⊆ freeMntres3.call.nulls := by decide
    have hiff := freed_iff_empty hfrees (by decide) (by decide) (fun loc hloc => isNull_of_mem (hnulls hloc))
      hdrawn (hfh.map _) (by decide)
    apply hiff.trans
    constructor
    · rintro hempty _ ⟨⟩
      exact hempty
    · intro hempty
      exact hempty info rfl

/-!
## `data`
-/

/-- The pointer of `READ3resok.data`. -/
abbrev readDataLoc : List Member := [.u, .resok, .data, .dataVal]

lemma read_done {pub : XPublic} {m : Memory Member} {b r : Bytes} {v : READ3res}
    (h : ((xdrREAD3resIn pub).run m [] b).outcome = .done v r) :
    ∃ s, xdrNfsstat3.decode b = some (v.disc, s) ∧ ∀ a, resok? v = some a →
      ((xdrREAD3resokIn pub).run m [.u, .resok] s).outcome = .done a r := by
  obtain ⟨s, hdisc, harm⟩ := InPlace.union_done h
  exact ⟨s, hdisc, fun a ha => InPlace.select_done harm ha⟩

/-- `data` is decoded into a buffer of its own when `NFS3_DATA_NO_DEXDR` was not given. -/
lemma readData_ledger {m : Memory Member} {l : List Member} {b r : Bytes} {v : READ3resok}
    (h : ((xdrREAD3resokDrawn .enableDataDexdr).run m l b).outcome = .done v r) :
    (xdrREAD3resokDrawn .enableDataDexdr).ledger m l b =
      if v.data.1 = [] then [] else [[.data, .dataVal]] := by
  obtain ⟨f, data, s, hhead, hdata, rfl, hledger⟩ := Drawn.field_done h
  change (xdrREAD3resokHeadIn.run m l b).outcome = .done f s at hhead
  obtain ⟨f₁, eof, s₁, hf₁, -, rfl⟩ := InPlace.field_done hhead
  obtain ⟨f₂, count, s₂, hf₂, -, rfl⟩ := InPlace.field_done hf₁
  obtain ⟨f₃, attributes, s₃, hf₃, -, rfl⟩ := InPlace.field_done hf₂
  cases hf₃
  exact hledger.trans (Ledger.bytes_done hdata)

/-- The data of a `READ3res`. -/
def readData (v : READ3res) : Bytes := (resok? v).elim [] fun resok => resok.data.1

lemma readData_of_status {v : READ3res} (h : ¬ statusOk v.disc = true) : readData v = [] := by
  rw [← resok_isSome, Bool.not_eq_true, Option.isSome_eq_false_iff, Option.isNone_iff_eq_none] at h
  rw [readData, h, Option.elim_none]

lemma read_ledger {m : Memory Member} {b r : Bytes} {v : READ3res}
    (h : ((xdrREAD3resIn .enableDataDexdr).run m [] b).outcome = .done v r) :
    (xdrREAD3resDrawn .enableDataDexdr).ledger m [] b = if readData v = [] then [] else [readDataLoc] := by
  obtain ⟨s, hdisc, hresok⟩ := read_done h
  have hunion : (xdrREAD3resDrawn .enableDataDexdr).ledger m [] b = if statusOk v.disc = true then
      (xdrREAD3resokDrawn .enableDataDexdr).ledger.member [.u, .resok] m [] s else [] :=
    Ledger.union_some hdisc _ _
  rw [hunion, ← resok_isSome, readData]
  cases hv : resok? v with
  | none => rfl
  | some a =>
    rw [Option.isSome_some, if_pos rfl, Option.elim_some]
    exact Ledger.member_ite (readData_ledger (hresok a hv))

lemma readNoData_ledger (m : Memory Member) (b : Bytes) :
    (xdrREAD3resDrawn .disableDataDexdr).ledger m [] b = [] := by
  change Ledger.union xdrNfsstat3 statusOk (Ledger.member [.u, .resok] .empty) m [] b = []
  unfold Ledger.union
  split
  · split <;> rfl
  · rfl

lemma read_freed_iff {dataXdr : Int} {m : Memory Member} {msg : Bytes} {len : Int} {v : READ3res}
    (h : DecodesTo (freeREAD3res dataXdr) m msg len v) :
    Freed (freeREAD3res dataXdr) m msg len v ↔
      dataXdr = nfs3DataNoDexdr ∨ dataXdr = nfs3DataDexdr ∨ readData v = [] := by
  obtain ⟨r, hr⟩ := h
  change ((xdrREAD3resIn (xPublicOf dataXdr)).run (dataCleared m) []
    (xdrmemCreate msg len)).outcome = _ at hr
  have hledger : (freeREAD3res dataXdr).routineLedger m msg len =
    (xdrREAD3resDrawn (xPublicOf dataXdr)).ledger (dataCleared m) [] (xdrmemCreate msg len) := rfl
  have hfrees : (freeREAD3res dataXdr).frees v =
    if statusOk v.disc = true ∧ dataXdr = nfs3DataDexdr then [readDataLoc, []] else [[]] := rfl
  by_cases hno : dataXdr = nfs3DataNoDexdr
  · subst hno
    rw [if_neg (fun h => absurd h.2 (by decide))] at hfrees
    exact iff_of_true (freed_of_nil hfrees (hledger.trans (readNoData_ledger _ _))) (.inl rfl)
  · rw [xPublicOf, if_neg hno] at hr hledger
    rw [read_ledger hr] at hledger
    by_cases hyes : dataXdr = nfs3DataDexdr
    · refine iff_of_true ?_ (.inr (.inl hyes))
      by_cases hok : statusOk v.disc = true
      · rw [if_pos ⟨hok, hyes⟩] at hfrees
        have hperm : [readDataLoc, []].Perm [[], readDataLoc] := by decide
        apply freed_of_sublist hfrees hperm (by decide)
        · intro loc hloc
          exact isNull_of_mem hloc
        · rw [hledger]
          split <;> simp
      · rw [if_neg (fun h => hok h.1)] at hfrees
        rw [if_pos (readData_of_status hok)] at hledger
        exact freed_of_nil hfrees hledger
    · rw [if_neg (fun h => hyes h.2)] at hfrees
      rw [freed_iff_empty hfrees (.refl _) (by decide) (List.forall_mem_nil _) hledger .slnil (by decide)]
      simp [hno, hyes]

/-- The pointer of `WRITE3args.data`. -/
abbrev writeDataLoc : List Member := [.data, .dataVal]

/-- The pointer of `WRITE3args.file`. -/
abbrev fileLoc : List Member := [.file, .data, .dataVal]

/-- `data` is decoded last. -/
lemma writeData_done {m : Memory Member} {b r : Bytes} {v : WRITE3args}
    (h : ((xdrWRITE3argsDrawn .enableDataDexdr).run m [] b).outcome = .done v r) :
    ∃ s, ((InPlace.bytes 0xffffffff [.dataVal]).run m [.data] s).outcome = .done v.data r ∧
      (xdrWRITE3argsDrawn .enableDataDexdr).ledger m [] b = xdrWRITE3argsHeadDrawn.ledger m [] b ++
        (Ledger.bytes 0xffffffff [.dataVal]).member [.data] m [] s := by
  obtain ⟨f, data, s, hhead, hdata, rfl, hledger⟩ := Drawn.field_done h
  change (xdrWRITE3argsHeadIn.run m [] b).outcome = .done f s at hhead
  obtain ⟨f₁, stable, s₁, hf₁, -, rfl⟩ := InPlace.field_done hhead
  obtain ⟨f₂, count, s₂, hf₂, -, rfl⟩ := InPlace.field_done hf₁
  obtain ⟨f₃, offset, s₃, hf₃, -, rfl⟩ := InPlace.field_done hf₂
  obtain ⟨f₄, file, s₄, hf₄, -, rfl⟩ := InPlace.field_done hf₃
  cases hf₄
  exact ⟨s, hdata, hledger⟩

lemma writeData_ledger {m : Memory Member} {b r : Bytes} {v : WRITE3args}
    (h : ((xdrWRITE3argsDrawn .enableDataDexdr).run m [] b).outcome = .done v r) :
    (xdrWRITE3argsDrawn .enableDataDexdr).ledger m [] b =
      xdrWRITE3argsHeadDrawn.ledger m [] b ++ if v.data.1 = [] then [] else [writeDataLoc] := by
  obtain ⟨s, hdata, hledger⟩ := writeData_done h
  exact hledger.trans (congrArg (_ ++ ·) (Ledger.bytes_done hdata))

/-- Nothing but an empty `data` is decoded when its pointer was left over. -/
lemma writeData_stale {m : Memory Member} {b r : Bytes} {v : WRITE3args} (hstale : m writeDataLoc ≠ 0)
    (h : ((xdrWRITE3argsDrawn .enableDataDexdr).run m [] b).outcome = .done v r) : v.data.1 = [] := by
  obtain ⟨s, hdata, -⟩ := writeData_done h
  change (if m writeDataLoc = 0 then _ else _) = _ at hdata
  rw [if_neg hstale] at hdata
  exact Ledger.throughCount_done hdata

/-- What `free_WRITE3args` can rely on for a value that was decoded. -/
def WriteFreeable (dataXdr : Int) (m : Memory Member) (v : WRITE3args) : Prop :=
  dataXdr ≠ nfs3DataNoDexdr →
    if dataXdr = nfs3DataDexdr then m writeDataLoc = 0 else v.data.1 = []

lemma fileCleared_data (m : Memory Member) : fileCleared m writeDataLoc = m writeDataLoc :=
  if_neg (by decide)

lemma write_isNull_iff {dataXdr : Int} {m : Memory Member} :
    (freeWRITE3args dataXdr).isNull m writeDataLoc = true ↔ m writeDataLoc = 0 := by
  have hnode : inNode writeDataLoc = false := by decide
  change (fileCleared m writeDataLoc == 0 || inNode writeDataLoc) = true ↔ _
  rw [fileCleared_data, hnode, Bool.or_false, beq_iff_eq]

/-- With `NFS3_DATA_DEXDR` the pointer is freed whatever it holds. -/
lemma write_freed_iff_null {m : Memory Member} {msg : Bytes} {len : Int} {v : WRITE3args}
    (h : DecodesTo (freeWRITE3args nfs3DataDexdr) m msg len v) :
    Freed (freeWRITE3args nfs3DataDexdr) m msg len v ↔ m writeDataLoc = 0 := by
  obtain ⟨r, hr⟩ := h
  have hledger : (freeWRITE3args nfs3DataDexdr).routineLedger m msg len = _ := writeData_ledger hr
  have hfile := xdrWRITE3argsHeadDrawn.within (fileCleared m) [] (xdrmemCreate msg len)
  have hfrees : (freeWRITE3args nfs3DataDexdr).frees v = [fileLoc, writeDataLoc, []] := rfl
  constructor
  · intro hfreed
    by_contra hstale
    rw [← fileCleared_data m] at hstale
    rw [if_pos (writeData_stale hstale hr), List.append_nil] at hledger
    cases hfreed.drawn_or_null hfrees (List.mem_cons_of_mem _ List.mem_cons_self) with
    | inl hmem =>
      rw [FreePair.drawn, hledger] at hmem
      have hkept := (hfile.cons_cons []).subset hmem
      revert hkept
      decide
    | inr hnull =>
      rw [write_isNull_iff, ← fileCleared_data m] at hnull
      exact hstale hnull
  · intro hnull
    have hperm : [fileLoc, writeDataLoc, []].Perm [[], fileLoc, writeDataLoc] := by decide
    refine freed_of_sublist hfrees hperm (by decide) ?_ ?_
    · intro loc hloc
      cases List.mem_cons.mp hloc with
      | inl hfile => exact isNull_of_mem (hfile ▸ List.mem_cons_self)
      | inr hdata => exact List.mem_singleton.mp hdata ▸ write_isNull_iff.mpr hnull
    · rw [hledger]
      apply hfile.append
      split
      · exact List.nil_sublist _
      · exact .refl _

lemma write_freed_iff {dataXdr : Int} {m : Memory Member} {msg : Bytes} {len : Int} {v : WRITE3args}
    (h : DecodesTo (freeWRITE3args dataXdr) m msg len v) :
    Freed (freeWRITE3args dataXdr) m msg len v ↔ WriteFreeable dataXdr m v := by
  obtain ⟨r, hr⟩ := h
  change ((xdrWRITE3argsIn (xPublicOf dataXdr)).run (fileCleared m) []
    (xdrmemCreate msg len)).outcome = _ at hr
  have hledger : (freeWRITE3args dataXdr).routineLedger m msg len =
    (xdrWRITE3argsDrawn (xPublicOf dataXdr)).ledger (fileCleared m) [] (xdrmemCreate msg len) := rfl
  have hfrees : (freeWRITE3args dataXdr).frees v =
    if dataXdr = nfs3DataDexdr then [fileLoc, writeDataLoc, []] else [fileLoc, []] := rfl
  have hfile := xdrWRITE3argsHeadDrawn.within (fileCleared m) [] (xdrmemCreate msg len)
  have hfileNull : ∀ loc ∈ [fileLoc], (freeWRITE3args dataXdr).isNull m loc = true :=
    fun loc hloc => isNull_of_mem hloc
  have hkept : [fileLoc, []].Perm [[], fileLoc] := by decide
  by_cases hno : dataXdr = nfs3DataNoDexdr
  · subst hno
    refine iff_of_true ?_ fun h => absurd rfl h
    exact freed_of_sublist hfrees hkept (by decide) hfileNull hfile
  · rw [xPublicOf, if_neg hno] at hr hledger
    rw [writeData_ledger hr] at hledger
    rw [WriteFreeable, imp_iff_right hno]
    by_cases hyes : dataXdr = nfs3DataDexdr
    · subst hyes
      exact write_freed_iff_null ⟨r, hr⟩
    · rw [if_neg hyes] at hfrees ⊢
      exact freed_iff_empty hfrees hkept (by decide) hfileNull hledger hfile (by decide)

/-!
## All pairs
-/

section All

variable (m : Memory Member) (msg : Bytes) (len : Int)

lemma freePairs_reads : ∀ w ∈ freePairs, w.call.xdr.reads ⊆ w.call.nulls := by
  decide

lemma freePairs_balanced_iff : ∀ w ∈ freePairs, w.Balanced m msg len ↔ RefusedEarly w m msg len := by
  intro w hw
  cases List.mem_append.mp hw with
  | inl hw =>
    cases List.mem_append.mp hw with
    | inl hconst =>
      obtain ⟨c, hc, rfl⟩ := List.mem_map.mp hconst
      obtain ⟨hreads, hfrees, hnodup⟩ := constFrees_locs c hc
      exact balanced_iff_refusedEarly hreads (fun _ => rfl) fun v _ =>
        const_freed hreads hfrees hnodup m msg len v
    | inr hstatus =>
      obtain ⟨c, hc, rfl⟩ := List.mem_map.mp hstatus
      obtain ⟨hfrees, hnulls, hnodup⟩ := statusFrees_locs c hc
      exact balanced_iff_refusedEarly (hfrees ▸ hnulls) (fun _ => rfl) fun v hv =>
        status_freed hfrees hnulls hnodup hv
  | inr hw =>
    cases List.mem_cons.mp hw with
    | inl hreaddir =>
      subst hreaddir
      exact balanced_iff_refusedEarly (by decide) (fun _ => rfl) fun v hv => readdir_freed hv
    | inr hreaddirplus =>
      cases List.mem_singleton.mp hreaddirplus
      exact balanced_iff_refusedEarly (by decide) (fun _ => rfl) fun v hv => readdirplus_freed hv

lemma mknod_balanced_iff :
    freeMKNOD3args.pair.Balanced m msg len ↔ RefusedEarly freeMKNOD3args.pair m msg len ∧
      ∀ v, ¬ DecodesTo freeMKNOD3args.pair m msg len v := by
  apply balanced_iff_of_reads (by decide)
  intro v _
  refine iff_of_false (fun h => ?_) id
  have htop := h.2.subset rfl (List.mem_cons_self : [] ∈ freeMKNOD3args.pair.drawn m msg len)
  have hnot : ([] : List Member) ∉ freeMKNOD3args.frees := by decide
  exact hnot htop

lemma exports_balanced_iff :
    freeExports.Balanced m msg len ↔ RefusedEarly freeExports m msg len ∧
      ∀ v, ¬ DecodesTo freeExports m msg len v := by
  apply balanced_iff_of_reads (by decide)
  intro v _
  exact iff_of_false (fun h => exports_not_freed m msg len v h.2) id

lemma mntres3_balanced_iff :
    freeMntres3.Balanced m msg len ↔ RefusedEarly freeMntres3 m msg len ∧
      ∀ v, DecodesTo freeMntres3 m msg len v →
        ∀ info, mountinfo? v = some info → info.authFlavors.1 = [] := by
  apply balanced_iff_of_reads (by decide)
  intro v hv
  exact (and_iff_right rfl).trans (mntres3_freed_iff hv)

lemma mountlist_balanced_iff :
    freeMountlist.Balanced m msg len ↔ RefusedEarly freeMountlist m msg len ∧
      ∀ v : Mountlist, DecodesTo freeMountlist m msg len v → v ≠ [] := by
  apply balanced_iff_of_reads (by decide)
  intro v hv
  constructor
  · rintro ⟨hnull, -⟩ rfl
    cases hnull
  · intro hne
    obtain ⟨mb, rest, rfl⟩ := List.exists_cons_of_ne_nil hne
    exact ⟨rfl, mountlist_freed hv hne⟩

lemma read_balanced_iff (dataXdr : Int) :
    (freeREAD3res dataXdr).Balanced m msg len ↔ RefusedEarly (freeREAD3res dataXdr) m msg len ∧
      ∀ v, DecodesTo (freeREAD3res dataXdr) m msg len v →
        dataXdr = nfs3DataNoDexdr ∨ dataXdr = nfs3DataDexdr ∨ readData v = [] := by
  by_cases hno : dataXdr = nfs3DataNoDexdr
  · subst hno
    have hdefined := (readNoData_decodes (dataCleared m) (xdrmemCreate msg len)).defined
    rw [balanced_iff]
    refine and_congr_right fun _ => (and_iff_right hdefined).trans ?_
    refine forall_congr' fun v => forall_congr' fun hv => ?_
    exact (and_iff_right rfl).trans (read_freed_iff hv)
  · have hpub : xPublicOf dataXdr = .enableDataDexdr := if_neg hno
    have hreads : (xdrREAD3resIn (xPublicOf dataXdr)).reads ⊆ [readDataLoc] := by
      rw [hpub]
      decide
    exact balanced_iff_of_reads hreads fun v hv => (and_iff_right rfl).trans (read_freed_iff hv)

lemma write_balanced_iff (dataXdr : Int) :
    (freeWRITE3args dataXdr).Balanced m msg len ↔ RefusedEarly (freeWRITE3args dataXdr) m msg len ∧
      ((xdrToWRITE3argsIn dataXdr).runIn m msg len).outcome ≠ .undefined ∧
      ∀ v, DecodesTo (freeWRITE3args dataXdr) m msg len v → WriteFreeable dataXdr m v := by
  rw [balanced_iff]
  refine and_congr_right fun _ => and_congr_right fun _ => ?_
  refine forall_congr' fun v => forall_congr' fun hv => ?_
  exact (and_iff_right rfl).trans (write_freed_iff hv)

/-- What balances, pair by pair and message by message. -/
theorem decode_free_balanced_iff :
    (∀ w ∈ freePairs, w.Balanced m msg len ↔ RefusedEarly w m msg len) ∧
    (freeMKNOD3args.pair.Balanced m msg len ↔ RefusedEarly freeMKNOD3args.pair m msg len ∧
      ∀ v, ¬ DecodesTo freeMKNOD3args.pair m msg len v) ∧
    (freeMntres3.Balanced m msg len ↔ RefusedEarly freeMntres3 m msg len ∧
      ∀ v, DecodesTo freeMntres3 m msg len v →
        ∀ info, mountinfo? v = some info → info.authFlavors.1 = []) ∧
    (freeMountlist.Balanced m msg len ↔ RefusedEarly freeMountlist m msg len ∧
      ∀ v : Mountlist, DecodesTo freeMountlist m msg len v → v ≠ []) ∧
    (freeExports.Balanced m msg len ↔ RefusedEarly freeExports m msg len ∧
      ∀ v, ¬ DecodesTo freeExports m msg len v) ∧
    (∀ dataXdr, (freeREAD3res dataXdr).Balanced m msg len ↔
      RefusedEarly (freeREAD3res dataXdr) m msg len ∧
      ∀ v, DecodesTo (freeREAD3res dataXdr) m msg len v →
        dataXdr = nfs3DataNoDexdr ∨ dataXdr = nfs3DataDexdr ∨ readData v = []) ∧
    (∀ dataXdr, (freeWRITE3args dataXdr).Balanced m msg len ↔
      RefusedEarly (freeWRITE3args dataXdr) m msg len ∧
      ((xdrToWRITE3argsIn dataXdr).runIn m msg len).outcome ≠ .undefined ∧
      ∀ v, DecodesTo (freeWRITE3args dataXdr) m msg len v → WriteFreeable dataXdr m v) :=
  ⟨freePairs_balanced_iff m msg len, mknod_balanced_iff m msg len, mntres3_balanced_iff m msg len,
    mountlist_balanced_iff m msg len, exports_balanced_iff m msg len, read_balanced_iff m msg len,
    write_balanced_iff m msg len⟩

end All

/-- A `READDIR3res` with the one entry `a`. -/
def oneEntryMsg : Bytes :=
  [0, 0, 0, 0, 0, 0, 0, 0, 0, 0, 0, 0, 0, 0, 0, 0, 0, 0, 0, 1, 0, 0, 0, 0, 0, 0, 0, 7, 0, 0, 0, 1, 97, 0, 0,
    0, 0, 0, 0, 0, 0, 0, 0, 1, 0, 0, 0, 0, 0, 0, 0, 1]

theorem decode_free_balanced_iff_oneEntry :
    freeREADDIR3res.Balanced (fun _ => 0xdeadbeef) oneEntryMsg 52 := by
  have hmem : freeREADDIR3res ∈ freePairs := by simp [freePairs]
  refine ((decode_free_balanced_iff (fun _ => 0xdeadbeef) oneEntryMsg 52).1 _ hmem).mpr fun hfailed => ?_
  have hdone : ∃ v r, (freeREADDIR3res.call.runIn (fun _ => 0xdeadbeef) oneEntryMsg 52).outcome = .done v r :=
    ⟨_, _, rfl⟩
  obtain ⟨v, r, hv⟩ := hdone
  cases hv.symm.trans hfailed

/-- `MKNOD3args` for a regular file `a`. -/
def mknodMsg : Bytes := [0, 0, 0, 0, 0, 0, 0, 1, 97, 0, 0, 0, 0, 0, 0, 1]

/-- A `mountres3` with an empty handle and one flavor. -/
def oneFlavorMsg : Bytes := [0, 0, 0, 0, 0, 0, 0, 0, 0, 0, 0, 1, 0, 0, 0, 1]

/-- One export without groups. -/
def oneExportMsg : Bytes := [0, 0, 0, 1, 0, 0, 0, 0, 0, 0, 0, 0, 0, 0, 0, 0]

/-- A handle of four bytes of which two are there, and messages that are decoded. -/
theorem decoded_blocks_leak :
    ((xdrToGETATTR3args (some [0, 0, 0, 4, 1, 2]) 6).isNone = true ∧
      freeGETATTR3args.pair.remaining .zeroed [0, 0, 0, 4, 1, 2] 6 = some [[.object, .data, .dataVal]]) ∧
    ((xdrToMKNOD3args (some mknodMsg) 16).isSome = true ∧
      freeMKNOD3args.pair.remaining .zeroed mknodMsg 16 = some [[]]) ∧
    ((xdrToMntres3 (some oneFlavorMsg) 16).isSome = true ∧
      freeMntres3.remaining .zeroed oneFlavorMsg 16 =
        some [[.u, .mountinfo, .authFlavors, .authFlavorsVal]]) ∧
    ((xdrToMountlist [0, 0, 0, 0] 4).isEmpty = true ∧
      freeMountlist.remaining .zeroed [0, 0, 0, 0] 4 = some [[]]) ∧
    ((xdrToExports (some oneExportMsg) 16).length = 1 ∧
      freeExports.remaining .zeroed oneExportMsg 16 = some [[]]) ∧
    ¬ freeMKNOD3args.pair.Balanced .zeroed mknodMsg 16 := by
  have hmknod : freeMKNOD3args.pair.remaining .zeroed mknodMsg 16 = some [[]] := by decide +kernel
  refine ⟨?_, ⟨by decide +kernel, hmknod⟩, ?_, ?_, ?_, ?_⟩
  · decide +kernel
  · decide +kernel
  · decide +kernel
  · decide +kernel
  · intro hbalanced
    cases hmknod.symm.trans hbalanced

end UnfsClient.Proofs
