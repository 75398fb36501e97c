import UnfsClient.Proofs.Actions
import UnfsClient.Proofs.HashTableRefinement

/-!
# Registrations

The callback table is a function of the log: it holds, oldest first, the registrations whose
entry has not been taken out. With fewer than 2³² of them their xids are distinct, so
`ght_insert` refuses none.
-/

namespace UnfsClient.Proofs

open Lib

def regOf? : Event → Option (Cbi × UInt32)
  | .registered cbi x _ => some (cbi, x)
  | _ => none

def regs (log : List Event) : List (Cbi × UInt32) := log.filterMap regOf?

def takenOf? : Event → Option Cbi
  | .taken cbi => some cbi
  | _ => none

def takens (log : List Event) : List Cbi := log.filterMap takenOf?

def ranOf? : Event → Option Cbi
  | .ran cbi _ _ => some cbi
  | _ => none

def rans (log : List Event) : List Cbi := log.filterMap ranOf?

/-- The registrations not taken out yet, under the keys of the callback table. -/
def live (log : List Event) : List (Bytes × Cbi) :=
  ((regs log).filter fun r => r.1 ∉ takens log).map fun r => (leBytes r.2, r.1)

/-- The xid of call number `i` of a handle whose header starts with the word `x₀`. -/
def callXid (x₀ : UInt32) (i : Nat) : UInt32 := byteSwap (x₀ - UInt32.ofNat (i + 1))

structure RegInv (x₀ : UInt32) (w : World) : Prop where
  table : GhtRefines w.ct.ctXidToUcb (live w.log)
  xid : w.ct.ctXid = x₀ - UInt32.ofNat (regs w.log).length
  xids : (regs w.log).map Prod.snd = (List.range (regs w.log).length).map (callXid x₀)
  accepted : ∀ cbi x res, .registered cbi x res ∈ w.log → res = 0
  serials : (regs w.log).Pairwise fun a b => a.1.serial < b.1.serial
  older : ∀ r ∈ regs w.log, r.1.serial < w.serial
  taken : ∀ cbi ∈ takens w.log, ∃ x, (cbi, x) ∈ regs w.log
  takenNodup : (takens w.log).Nodup

def ofBooks : Event → Bool
  | .registered _ _ _ | .taken _ | .ran _ _ _ => true
  | _ => false

lemma regs_append (a b : List Event) : regs (a ++ b) = regs a ++ regs b := List.filterMap_append

lemma takens_append (a b : List Event) : takens (a ++ b) = takens a ++ takens b := List.filterMap_append

lemma rans_append (a b : List Event) : rans (a ++ b) = rans a ++ rans b := List.filterMap_append

/-- Nothing that concerns registrations differs. -/
structure SameBooks (w w' : World) : Prop where
  table : w'.ct.ctXidToUcb = w.ct.ctXidToUcb
  xid : w'.ct.ctXid = w.ct.ctXid
  serial : w.serial ≤ w'.serial
  log : ∃ es, w'.log = w.log ++ es ∧ ∀ e ∈ es, ofBooks e = false

lemma no_books {es : List Event} (h : ∀ e ∈ es, ofBooks e = false) :
    regs es = [] ∧ takens es = [] ∧ rans es = [] := by
  refine ⟨?_, ?_, ?_⟩
  all_goals
    apply List.filterMap_eq_nil_iff.mpr
    intro e he
    have hbook := h e he
    cases e <;> first | rfl | cases hbook

lemma SameBooks.books {w w' : World} (h : SameBooks w w') :
    regs w'.log = regs w.log ∧ takens w'.log = takens w.log ∧ rans w'.log = rans w.log := by
  obtain ⟨es, hes, hno⟩ := h.log
  obtain ⟨hr, ht, hn⟩ := no_books hno
  rw [hes, regs_append, takens_append, rans_append, hr, ht, hn]
  simp

/-- Everything an action can do to the registrations. -/
lemma Act.books {E : Env} {calls : Bool} {w w' : World} (h : Act E calls w w') :
    SameBooks w w' ∨
    (∃ msg xid body t cbi es, Decoded E w msg xid body ∧ takeCallback w.ct.ctXidToUcb xid = (t, some cbi) ∧
      ((es = [.taken cbi] ∧ cbi.info.callback = none) ∨ es = [.taken cbi, .ran cbi xid body]) ∧ w'.ct.ctXidToUcb = t ∧
      w'.ct.ctXid = w.ct.ctXid ∧ w'.serial = w.serial ∧ w'.log = w.log ++ es) ∨
    (calls = true ∧ ∃ ucbi, w' = registerCall ⟨w.serial, ucbi⟩ w.tick) := by
  have hsame : ∃ es, w.log = w.log ++ es ∧ ∀ e ∈ es, ofBooks e = false := ⟨[], by simp⟩
  have hone : ∀ e, ofBooks e = false → ∃ es, w.log ++ [e] = w.log ++ es ∧ ∀ e ∈ es, ofBooks e = false :=
    fun e he => ⟨[e], rfl, by simpa using he⟩
  cases h with
  | tx h =>
    have htx := h.txOnly
    obtain ⟨es, hes, hev⟩ := htx.log
    refine Or.inl ⟨(congrArg CtData.ctXidToUcb htx.ct :), (congrArg CtData.ctXid htx.ct :), htx.serial, es, hes, ?_⟩
    intro e he
    have htr := hev e he
    cases e <;> first | rfl | cases htr
  | setRs rs => exact Or.inl ⟨rfl, rfl, le_refl _, hsame⟩
  | tick => exact Or.inl ⟨rfl, rfl, Nat.le_succ _, hsame⟩
  | @parsed _ e he =>
    refine Or.inl ⟨rfl, rfl, le_refl _, hone e ?_⟩
    cases e <;> first | rfl | cases he
  | read h => exact Or.inl ⟨rfl, rfl, le_refl _, hone _ rfl⟩
  | load b => exact Or.inl ⟨rfl, rfl, le_refl _, hsame⟩
  | unknown hdec htake => exact Or.inl ⟨rfl, rfl, le_refl _, hsame⟩
  | take hdec htake hcb =>
    exact Or.inr (Or.inl ⟨_, _, _, _, _, _, hdec, htake, Or.inl ⟨rfl, hcb⟩, rfl, rfl, rfl, rfl⟩)
  | deliver hdec htake hcb =>
    refine Or.inr (Or.inl ⟨_, _, _, _, _, _, hdec, htake, Or.inr rfl, rfl, rfl, rfl, ?_⟩)
    simp [dropEntry, countReceived]
  | register hcalls _ ucbi => exact Or.inr (Or.inr ⟨hcalls, ucbi, rfl⟩)
  | issue hcalls hreg => exact Or.inl ⟨rfl, rfl, le_refl _, hone _ rfl⟩
  | settle n => exact Or.inl ⟨rfl, rfl, le_refl _, hsame⟩
  | depth hcalls d => exact Or.inl ⟨rfl, rfl, le_refl _, hsame⟩
  | enter hcalls reads writes => exact Or.inl ⟨rfl, rfl, le_refl _, hsame⟩

/-! ## Looking up an xid -/

lemma leWord_leBytes (w : UInt32) : leWord (leBytes w) = w := beWord_beBytes w

def XidKeys (d : List (Bytes × Cbi)) : Prop := ∀ e ∈ d, ∃ x : UInt32, e.1 = leBytes x

lemma xidKeys_live (log : List Event) : XidKeys (live log) := by
  intro e he
  obtain ⟨r, -, rfl⟩ := List.mem_map.mp he
  exact ⟨r.2, rfl⟩

/-- The shortcut through the oldest entry finds what the lookup by key would find. -/
lemma takeCallback_spec {t : GhtHashTable Cbi} {d : List (Bytes × Cbi)} (h : GhtRefines t d) (hkeys : XidKeys d)
    (xid : UInt64) :
    (leBytes xid.toUInt32 ∉ d.map Prod.fst ∧ takeCallback t xid = (t, none)) ∨
    ∃ cbi, (leBytes xid.toUInt32, cbi) ∈ d ∧ (takeCallback t xid).2 = some cbi ∧
      GhtRefines (takeCallback t xid).1 (dropKey d (leBytes xid.toUInt32)) := by
  unfold takeCallback
  cases d with
  | nil =>
    rw [h.first_nil]
    exact Or.inl ⟨by simp, rfl⟩
  | cons e d =>
    obtain ⟨k, cbi⟩ := e
    obtain ⟨y, rfl⟩ := hkeys (k, cbi) (by simp)
    rw [h.first_cons]
    dsimp only
    rw [leWord_leBytes]
    by_cases hy : y.toUInt64 ≠ xid
    · rw [if_pos hy]
      by_cases hmem : leBytes xid.toUInt32 ∈ ((leBytes y, cbi) :: d).map Prod.fst
      · obtain ⟨e, he, hek⟩ := List.mem_map.mp hmem
        have he' : (leBytes xid.toUInt32, e.2) ∈ (leBytes y, cbi) :: d := by
          rw [← hek]
          exact he
        obtain ⟨hdata, href⟩ := h.remove_present he'
        exact Or.inr ⟨e.2, he', hdata, href⟩
      · rw [h.remove_absent _ hmem]
        exact Or.inl ⟨hmem, rfl⟩
    · rw [if_neg hy]
      obtain rfl := not_not.mp hy
      have hlow : y.toUInt64.toUInt32 = y := by simp
      rw [hlow, dropKey_cons_self h.keys_nodup]
      obtain ⟨hdata, href⟩ := h.removeFirst_cons
      exact Or.inr ⟨cbi, by simp, hdata, href⟩

/-! ## What the actions preserve -/

lemma callXid_injOn (x₀ : UInt32) {i j : Nat} (hi : i < 2 ^ 32) (hj : j < 2 ^ 32) (h : callXid x₀ i = callXid x₀ j) :
    i = j := by
  have hsub := congrArg UInt32.toNat (byteSwap_injective h)
  simp only [UInt32.toNat_sub, UInt32.toNat_ofNat'] at hsub
  have hx := x₀.toNat_lt
  omega

lemma callXid_succ (x₀ : UInt32) (n : Nat) : byteSwap (x₀ - UInt32.ofNat n - 1) = callXid x₀ n := by
  unfold callXid
  congr 1
  apply UInt32.toNat_inj.mp
  simp only [UInt32.toNat_sub, UInt32.toNat_ofNat', UInt32.toNat_one]
  omega

lemma RegInv.of_sameBooks {x₀ : UInt32} {w w' : World} (h : RegInv x₀ w) (hs : SameBooks w w') : RegInv x₀ w' := by
  obtain ⟨hr, ht, -⟩ := hs.books
  obtain ⟨es, hes, hno⟩ := hs.log
  refine ⟨?_, ?_, ?_, ?_, ?_, ?_, ?_, ?_⟩
  · rw [hs.table, live, hr, ht]
    exact h.table
  · rw [hs.xid, hr]
    exact h.xid
  · rw [hr]
    exact h.xids
  · intro cbi x res hmem
    rw [hes] at hmem
    rcases List.mem_append.mp hmem with hmem | hmem
    · exact h.accepted cbi x res hmem
    · cases hno _ hmem
  · rw [hr]
    exact h.serials
  · rw [hr]
    intro r hmem
    exact Nat.lt_of_lt_of_le (h.older r hmem) hs.serial
  · rw [hr, ht]
    exact h.taken
  · rw [ht]
    exact h.takenNodup

lemma RegInv.mem_live {log : List Event} {k : Bytes} {cbi : Cbi} (h : (k, cbi) ∈ live log) :
    ∃ x, (cbi, x) ∈ regs log ∧ cbi ∉ takens log ∧ k = leBytes x := by
  obtain ⟨r, hr, he⟩ := List.mem_map.mp h
  obtain ⟨hmem, hnt⟩ := List.mem_filter.mp hr
  cases he
  exact ⟨r.2, hmem, by simpa using hnt, rfl⟩

/-- The xid of a live registration finds its callback. -/
lemma RegInv.takeCallback_live {x₀ : UInt32} {w : World} (h : RegInv x₀ w) {x : UInt32} {cbi : Cbi}
    (hlive : (leBytes x, cbi) ∈ live w.log) : ∃ t, takeCallback w.ct.ctXidToUcb x.toUInt64 = (t, some cbi) := by
  rcases takeCallback_spec h.table (xidKeys_live w.log) x.toUInt64 with ⟨habs, -⟩ | ⟨c, hmem, hsome, -⟩
  · simp only [UInt32.toUInt32_toUInt64] at habs
    exact absurd (List.mem_map.mpr ⟨_, hlive, rfl⟩) habs
  · simp only [UInt32.toUInt32_toUInt64] at hmem
    obtain rfl : c = cbi := congrArg Prod.snd (List.inj_on_of_nodup_map h.table.keys_nodup hmem hlive rfl)
    exact ⟨_, Prod.ext rfl hsome⟩

lemma RegInv.cbis_nodup {x₀ : UInt32} {w : World} (h : RegInv x₀ w) : ((regs w.log).map Prod.fst).Nodup := by
  rw [List.Nodup, List.pairwise_map]
  exact h.serials.imp fun hlt heq => Nat.ne_of_lt hlt (congrArg Cbi.serial heq)

lemma RegInv.live_cbis_nodup {x₀ : UInt32} {w : World} (h : RegInv x₀ w) : ((live w.log).map Prod.snd).Nodup := by
  unfold live
  rw [List.map_map]
  exact h.cbis_nodup.sublist (List.filter_sublist.map Prod.fst)

lemma RegInv.reg_unique {x₀ : UInt32} {w : World} (h : RegInv x₀ w) {cbi : Cbi} {x y : UInt32}
    (hx : (cbi, x) ∈ regs w.log) (hy : (cbi, y) ∈ regs w.log) : x = y :=
  congrArg Prod.snd (List.inj_on_of_nodup_map h.cbis_nodup hx hy rfl)

/-- Taking an entry out of the log's registrations is dropping its key from the dictionary. -/
lemma RegInv.live_taken {x₀ : UInt32} {w : World} (h : RegInv x₀ w) {cbi : Cbi} {x : UInt32} {es : List Event}
    (hmem : (leBytes x, cbi) ∈ live w.log) (hreg : regs es = []) (htaken : takens es = [cbi]) :
    live (w.log ++ es) = dropKey (live w.log) (leBytes x) := by
  obtain ⟨y, hy, hnt, hxy⟩ := RegInv.mem_live hmem
  obtain rfl := leBytes_injective hxy
  unfold live dropKey
  rw [regs_append, takens_append, hreg, htaken, List.append_nil, List.filter_map, List.filter_filter]
  congr 1
  apply List.filter_congr
  intro r hr
  by_cases ht : r.1 ∈ takens w.log
  · simp [ht]
  · -- among the live entries the callback determines the key and the key the callback
    have hkey : r.1 = cbi ↔ leBytes r.2 = leBytes x := by
      constructor
      · intro hcbi
        obtain ⟨c, z⟩ := r
        obtain rfl : c = cbi := hcbi
        rw [h.reg_unique hr hy]
      · intro hk
        have hr' : (leBytes r.2, r.1) ∈ live w.log :=
          List.mem_map.mpr ⟨r, List.mem_filter.mpr ⟨hr, by simpa using ht⟩, rfl⟩
        exact congrArg Prod.snd (List.inj_on_of_nodup_map h.table.keys_nodup hr' hmem hk)
    simp [ht, hkey]

lemma RegInv.take {x₀ : UInt32} {w w' : World} (h : RegInv x₀ w) {t : GhtHashTable Cbi} {cbi : Cbi} {xid : UInt64}
    {es : List Event} (htake : takeCallback w.ct.ctXidToUcb xid = (t, some cbi))
    (hreg : regs es = []) (htaken : takens es = [cbi]) (htable : w'.ct.ctXidToUcb = t)
    (hxid : w'.ct.ctXid = w.ct.ctXid) (hserial : w'.serial = w.serial) (hlog : w'.log = w.log ++ es) :
    RegInv x₀ w' := by
  rcases takeCallback_spec h.table (xidKeys_live w.log) xid with ⟨-, hnone⟩ | ⟨cbi', hmem, hsome, href⟩
  · rw [hnone] at htake
    cases htake
  rw [htake] at hsome href
  obtain rfl : cbi = cbi' := Option.some.inj hsome
  obtain ⟨y, hy, hnt, -⟩ := RegInv.mem_live hmem
  have hr : regs w'.log = regs w.log := by rw [hlog, regs_append, hreg, List.append_nil]
  have ht : takens w'.log = takens w.log ++ [cbi] := by rw [hlog, takens_append, htaken]
  refine ⟨?_, ?_, ?_, ?_, ?_, ?_, ?_, ?_⟩
  · rw [htable, hlog, h.live_taken hmem hreg htaken]
    exact href
  · rw [hxid, hr]
    exact h.xid
  · rw [hr]
    exact h.xids
  · intro c x res hm
    rw [hlog] at hm
    rcases List.mem_append.mp hm with hm | hm
    · exact h.accepted c x res hm
    · have hin : (c, x) ∈ regs es := List.mem_filterMap.mpr ⟨_, hm, rfl⟩
      rw [hreg] at hin
      cases hin
  · rw [hr]
    exact h.serials
  · rw [hr, hserial]
    exact h.older
  · intro c hc
    rw [hr]
    rw [ht] at hc
    rcases List.mem_append.mp hc with hc | hc
    · exact h.taken c hc
    · obtain rfl := List.mem_singleton.mp hc
      exact ⟨y, hy⟩
  · rw [ht, List.nodup_append]
    refine ⟨h.takenNodup, List.nodup_singleton _, ?_⟩
    intro a ha b hb hab
    obtain rfl := List.mem_singleton.mp hb
    exact hnt (hab ▸ ha)

/-- The next xid is not in use as long as fewer than 2³² were given out. -/
lemma RegInv.fresh {x₀ : UInt32} {w : World} (h : RegInv x₀ w) (hn : (regs w.log).length < 2 ^ 32) :
    callXid x₀ (regs w.log).length ∉ (regs w.log).map Prod.snd := by
  intro hmem
  rw [h.xids] at hmem
  obtain ⟨i, hi, hix⟩ := List.mem_map.mp hmem
  have hlt := List.mem_range.mp hi
  have := callXid_injOn x₀ (hlt.trans hn) hn hix
  omega

lemma RegInv.xids_nodup {x₀ : UInt32} {w : World} (h : RegInv x₀ w) (hn : (regs w.log).length ≤ 2 ^ 32) :
    ((regs w.log).map Prod.snd).Nodup := by
  rw [h.xids]
  apply List.Nodup.map_on _ List.nodup_range
  intro i hi j hj hij
  exact callXid_injOn x₀ ((List.mem_range.mp hi).trans_le hn) ((List.mem_range.mp hj).trans_le hn) hij

lemma RegInv.insert {x₀ : UInt32} {w : World} (h : RegInv x₀ w) (hn : (regs w.log).length < 2 ^ 32)
    (cbi : Cbi) :
    (ghtInsert w.ct.ctXidToUcb cbi (leBytes (callXid x₀ (regs w.log).length))).2 = 0 ∧
      GhtRefines (ghtInsert w.ct.ctXidToUcb cbi (leBytes (callXid x₀ (regs w.log).length))).1
        (live w.log ++ [(leBytes (callXid x₀ (regs w.log).length), cbi)]) := by
  apply h.table.insert_new
  intro hmem
  obtain ⟨⟨k, cbi⟩, he, rfl⟩ := List.mem_map.mp hmem
  obtain ⟨y, hy, -, hxy⟩ := RegInv.mem_live he
  apply h.fresh hn
  rw [leBytes_injective hxy]
  exact List.mem_map.mpr ⟨_, hy, rfl⟩

lemma RegInv.nextXid {x₀ : UInt32} {w : World} (h : RegInv x₀ w) :
    byteSwap (w.ct.ctXid - 1) = callXid x₀ (regs w.log).length := by
  rw [h.xid, callXid_succ]

lemma RegInv.register_log {x₀ : UInt32} {w : World} (h : RegInv x₀ w) (hn : (regs w.log).length < 2 ^ 32)
    (ucbi : CallbackInfo) :
    (registerCall ⟨w.serial, ucbi⟩ w.tick).log =
      w.log ++ [.registered ⟨w.serial, ucbi⟩ (callXid x₀ (regs w.log).length) 0] := by
  simp only [registerCall, World.note_log, World.tick_log, World.tick_ct, h.nextXid, (h.insert hn _).1]

lemma RegInv.register {x₀ : UInt32} {w : World} (h : RegInv x₀ w) (hn : (regs w.log).length < 2 ^ 32)
    (ucbi : CallbackInfo) :
    RegInv x₀ (registerCall ⟨w.serial, ucbi⟩ w.tick) ∧
      live (registerCall ⟨w.serial, ucbi⟩ w.tick).log =
        live w.log ++ [(leBytes (callXid x₀ (regs w.log).length), ⟨w.serial, ucbi⟩)] := by
  have hx := h.nextXid
  obtain ⟨-, href⟩ := h.insert hn ⟨w.serial, ucbi⟩
  have hlog := h.register_log hn ucbi
  have hr : regs (registerCall ⟨w.serial, ucbi⟩ w.tick).log =
      regs w.log ++ [(⟨w.serial, ucbi⟩, callXid x₀ (regs w.log).length)] := by
    rw [hlog, regs_append]
    rfl
  have ht : takens (registerCall ⟨w.serial, ucbi⟩ w.tick).log = takens w.log := by
    rw [hlog, takens_append]
    exact List.append_nil _
  have hnt : (⟨w.serial, ucbi⟩ : Cbi) ∉ takens w.log := by
    intro hmem
    obtain ⟨y, hy⟩ := h.taken _ hmem
    exact Nat.lt_irrefl _ (h.older _ hy)
  have hlive : live (registerCall ⟨w.serial, ucbi⟩ w.tick).log =
      live w.log ++ [(leBytes (callXid x₀ (regs w.log).length), ⟨w.serial, ucbi⟩)] := by
    unfold live
    rw [hr, ht, List.filter_append, List.map_append, List.filter_singleton]
    simp [hnt]
  refine ⟨⟨?_, ?_, ?_, ?_, ?_, ?_, ?_, ?_⟩, hlive⟩
  · rw [hlive]
    change GhtRefines (ghtInsert w.ct.ctXidToUcb _ (leBytes (byteSwap (w.ct.ctXid - 1)))).1 _
    rw [hx]
    exact href
  · rw [hr, List.length_append, List.length_singleton]
    apply byteSwap_injective
    rw [← callXid, ← hx]
    rfl
  · rw [hr, List.map_append, h.xids, List.length_append, List.length_singleton, List.range_succ, List.map_append]
    rfl
  · intro cbi x res hmem
    rw [hlog] at hmem
    rcases List.mem_append.mp hmem with hmem | hmem
    · exact h.accepted cbi x res hmem
    · cases List.mem_singleton.mp hmem
      rfl
  · rw [hr, List.pairwise_append]
    refine ⟨h.serials, List.pairwise_singleton _ _, ?_⟩
    intro a ha b hb
    obtain rfl := List.mem_singleton.mp hb
    exact h.older a ha
  · rw [hr]
    intro r hmem
    rcases List.mem_append.mp hmem with hmem | hmem
    · exact Nat.lt_succ_of_lt (h.older r hmem)
    · obtain rfl := List.mem_singleton.mp hmem
      exact Nat.lt_succ_self _
  · intro cbi hc
    rw [ht] at hc
    obtain ⟨y, hy⟩ := h.taken cbi hc
    exact ⟨y, by rw [hr]; exact List.mem_append_left _ hy⟩
  · rw [ht]
    exact h.takenNodup

lemma regs_grows {E : Env} {calls : Bool} {w w' : World} (h : Act E calls w w') :
    (regs w.log).length ≤ (regs w'.log).length := by
  obtain ⟨es, hes⟩ := h.log_grows
  rw [← hes, regs_append, List.length_append]
  exact Nat.le_add_right _ _

lemma Act.regInv {E : Env} {calls : Bool} {x₀ : UInt32} {w w' : World} (h : Act E calls w w') (hi : RegInv x₀ w)
    (hn : (regs w'.log).length ≤ 2 ^ 32) : RegInv x₀ w' := by
  rcases h.books with hs | ⟨msg, xid, body, t, cbi, es, -, htake, hes, htable, hxid, hserial, hlog⟩ | ⟨-, ucbi, rfl⟩
  · exact hi.of_sameBooks hs
  · rcases hes with ⟨rfl, -⟩ | rfl
    · exact hi.take htake rfl rfl htable hxid hserial hlog
    · exact hi.take htake rfl rfl htable hxid hserial hlog
  · have hlt : (regs w.log).length < 2 ^ 32 := by
      have hone : (regs (registerCall ⟨w.serial, ucbi⟩ w.tick).log).length = (regs w.log).length + 1 := by
        simp only [registerCall, World.note_log, World.tick_log, regs_append, List.length_append]
        rfl
      omega
    exact (hi.register hlt ucbi).1

lemma Acts.regInv {E : Env} {calls : Bool} {x₀ : UInt32} {w w' : World} (h : Acts E calls w w') (hi : RegInv x₀ w)
    (hn : (regs w'.log).length ≤ 2 ^ 32) : RegInv x₀ w' := by
  induction h with
  | refl => exact hi
  | tail _ hact ih => exact hact.regInv (ih ((regs_grows hact).trans hn)) hn

lemma regInv_start {ct : CtData} (hct : Created ct) : RegInv ct.ctXid (World.start ct) := by
  have htable : GhtRefines ct.ctXidToUcb [] := by
    cases hct
    · exact ghtRefines_create bucketXid
    · exact ghtRefines_create bucketXid
  refine ⟨htable, ?_, rfl, ?_, .nil, ?_, ?_, .nil⟩
  · exact (UInt32.sub_zero _).symm
  · intro cbi x res hmem
    cases hmem
  · intro r hmem
    cases hmem
  · intro cbi hmem
    cases hmem

end UnfsClient.Proofs
