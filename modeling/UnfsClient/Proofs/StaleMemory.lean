import UnfsClient.Nfs3InPlace

/-!
# Stale memory under the decode wrappers

The structure a wrapper decodes into comes from `mem_alloc` and holds what was there before. A
wrapper is independent of it when all pointers its routine reads are among those it sets to null,
which is checked wrapper by wrapper. `data` of a `READ3res` and of a `WRITE3args` is the exception:
it can be left as it was, and the pointer in a `WRITE3args` is not set.
-/

namespace UnfsClient.Proofs

open Lib

/-- Two runs that looked at null pointers only and both failed, or returned the same value with the
same in every field that was left as it was. -/
structure Independent {α : Type} (w₁ w₂ : Walk α) : Prop where
  null₁ : w₁.Null
  null₂ : w₂.Null
  same : w₁.outcome = .failed ∧ w₂.outcome = .failed ∨
    ∃ v r₁ r₂, w₁.outcome = .done v r₁ ∧ w₂.outcome = .done v r₂ ∧ w₁.left = w₂.left

/-- Two runs that do what the decoder does differ in what they left. -/
lemma independent_iff_left {α : Type} {w₁ w₂ : Walk α} {o : Option (α × Bytes)} (h₁ : w₁.Decodes o)
    (h₂ : w₂.Decodes o) : Independent w₁ w₂ ↔ (o.isSome = true → w₁.left = w₂.left) := by
  cases o with
  | none => exact ⟨fun _ h => (nomatch h), fun _ => ⟨h₁.1, h₂.1, .inl ⟨h₁.2, h₂.2⟩⟩⟩
  | some x =>
    constructor
    · intro h _
      cases h.same with
      | inl hf => exact nomatch h₁.2.symm.trans hf.1
      | inr hd =>
        obtain ⟨_, _, _, _, _, hleft⟩ := hd
        exact hleft
    · intro h
      exact ⟨h₁.1, h₂.1, .inr ⟨x.1, x.2, x.2, h₁.2, h₂.2, h rfl⟩⟩

/-- A wrapper that sets every pointer its routine reads does what it does on zeroed memory. -/
lemma runIn_cleared {w : DecodeCall} (h : w.xdr.reads ⊆ w.nulls) (m : Memory Member) (msg : Bytes)
    (len : Int) : w.runIn m msg len = w.xdr.run .zeroed [] (xdrmemCreate msg len) :=
  w.xdr.run_clear h m _

lemma runIn_independent {w : DecodeCall} (h : w.xdr.reads ⊆ w.nulls) (m₁ m₂ : Memory Member) (msg : Bytes)
    (len : Int) : Independent (w.runIn m₁ msg len) (w.runIn m₂ msg len) := by
  have hdec := w.xdr.zeroed [] (xdrmemCreate msg len)
  rw [runIn_cleared h, runIn_cleared h]
  exact (independent_iff_left hdec hdec).mpr fun _ => rfl

lemma decodeCalls_reads : ∀ w ∈ decodeCalls, w.xdr.reads ⊆ w.nulls := by
  decide

/-!
## `data` left as it was
-/

/-- The memory as `xdr_to_READ3res` hands it to its routine. -/
abbrev dataCleared (m : Memory Member) : Memory Member := m.clear [[.u, .resok, .data, .dataVal]]

/-- The memory as `xdr_to_WRITE3args` hands it to its routine. -/
abbrev fileCleared (m : Memory Member) : Memory Member := m.clear [[.file, .data, .dataVal]]

/-- The two words of a `data` member. -/
def dataWords : List (List Member) := [[.data, .dataLen], [.data, .dataVal]]

/-- The arms of a `READ3res` that is decoded without `data`. -/
def readArm (ok : Bool) : InPlace Member
    (Codec.select (xdrREAD3resok .disableDataDexdr) xdrREAD3resfail.toCodec ok) :=
  .select ((xdrREAD3resokIn .disableDataDexdr).member [.u, .resok]) (.plain xdrREAD3resfail.toCodec) ok

lemma readHead_decodes (m : Memory Member) (l : List Member) (b : Bytes) :
    (xdrREAD3resokHeadIn.run m l b).Decodes (xdrREAD3resokHead.decode b) := by
  rw [xdrREAD3resokHeadIn.congr (List.forall_mem_nil _) b]
  exact xdrREAD3resokHeadIn.zeroed l b

lemma readArm_decodes (ok : Bool) (m : Memory Member) (b : Bytes) :
    ((readArm ok).run m [] b).Decodes
      ((Codec.select (xdrREAD3resok .disableDataDexdr) xdrREAD3resfail.toCodec ok).decode b) := by
  cases ok with
  | false => exact .ofOption _
  | true => exact (readHead_decodes m [.u, .resok] b).skip noData _

lemma readArm_left_iff {ok : Bool} {b : Bytes}
    (hsome : ((Codec.select (xdrREAD3resok .disableDataDexdr)
      xdrREAD3resfail.toCodec ok).decode b).isSome = true)
    (m₁ m₂ : Memory Member) :
    ((readArm ok).run m₁ [] b).left = ((readArm ok).run m₂ [] b).left ↔
      (ok = true → Memory.AgreeOn dataWords [.u, .resok] m₁ m₂) := by
  cases ok with
  | false => exact ⟨fun _ h => (nomatch h), fun _ => rfl⟩
  | true =>
    have hagree : Memory.AgreeOn xdrREAD3resokHeadIn.reads [.u, .resok] m₁ m₂ := List.forall_mem_nil _
    have hskip := InPlace.skip_left_iff hagree (readHead_decodes m₁ [.u, .resok] b) hsome dataWords
    exact hskip.trans ⟨fun h _ => h, fun h => h rfl⟩

lemma readNoData_decodes (m : Memory Member) (b : Bytes) :
    ((xdrREAD3resIn .disableDataDexdr).run m [] b).Decodes ((xdrREAD3res .disableDataDexdr).decode b) := by
  apply (Walk.Decodes.ofOption (xdrNfsstat3.decode b)).bind
  intro status r
  exact Walk.Decodes.map (readArm_decodes (statusOk status) m r)
    (DiscUnion.mk status : StatusArm READ3resok READ3resfail status → READ3res)

/-- Two `READ3res` decoded without `data` differ in it when they are `NFS3_OK`. -/
lemma readNoData_left_iff {b r : Bytes} {v : READ3res}
    (hv : (xdrREAD3res .disableDataDexdr).decode b = some (v, r)) (m₁ m₂ : Memory Member) :
    ((xdrREAD3resIn .disableDataDexdr).run m₁ [] b).left =
        ((xdrREAD3resIn .disableDataDexdr).run m₂ [] b).left ↔
      (statusOk v.disc = true → Memory.AgreeOn dataWords [.u, .resok] m₁ m₂) := by
  obtain ⟨⟨status, r'⟩, hstatus, hrest⟩ := Option.bind_eq_some_iff.mp hv
  obtain ⟨⟨arm, r''⟩, harm, hpure⟩ := Option.bind_eq_some_iff.mp hrest
  cases hpure
  have hsome : ((Codec.select (xdrREAD3resok .disableDataDexdr) xdrREAD3resfail.toCodec
      (statusOk status)).decode r').isSome = true := Option.isSome_of_mem harm
  rw [xdrREAD3resIn, InPlace.union_left hstatus, InPlace.union_left hstatus]
  exact readArm_left_iff hsome m₁ m₂

lemma readData_agree_iff (m₁ m₂ : Memory Member) :
    Memory.AgreeOn dataWords [.u, .resok] (dataCleared m₁) (dataCleared m₂) ↔
      m₁ [.u, .resok, .data, .dataLen] = m₂ [.u, .resok, .data, .dataLen] := by
  simp [Memory.AgreeOn, dataWords, Memory.clear]

lemma read_independent_iff (dataXdr : Int) (m₁ m₂ : Memory Member) (msg : Bytes) (len : Int) :
    Independent ((xdrToREAD3resIn dataXdr).runIn m₁ msg len) ((xdrToREAD3resIn dataXdr).runIn m₂ msg len) ↔
      (dataXdr = nfs3DataNoDexdr → ∀ v, xdrToREAD3res (some msg) len dataXdr = some v →
        statusOk v.disc = true → m₁ [.u, .resok, .data, .dataLen] = m₂ [.u, .resok, .data, .dataLen]) := by
  by_cases hxdr : dataXdr = nfs3DataNoDexdr
  · subst hxdr
    have hleft := independent_iff_left (readNoData_decodes (dataCleared m₁) (xdrmemCreate msg len))
      (readNoData_decodes (dataCleared m₂) _)
    apply hleft.trans
    change _ ↔ (_ → ∀ v,
      ((xdrREAD3res .disableDataDexdr).decode (xdrmemCreate msg len)).map Prod.fst = some v → _)
    cases hdec : (xdrREAD3res .disableDataDexdr).decode (xdrmemCreate msg len) with
    | none => exact ⟨fun _ _ _ h => (nomatch h), fun _ h => (nomatch h)⟩
    | some x =>
      rw [readNoData_left_iff hdec, readData_agree_iff]
      constructor
      · rintro h _ v ⟨⟩
        exact h rfl
      · intro h _
        exact h rfl x.1 rfl
  · have hpub : xPublicOf dataXdr = .enableDataDexdr := if_neg hxdr
    have hreads : (xdrToREAD3resIn dataXdr).xdr.reads ⊆ (xdrToREAD3resIn dataXdr).nulls := by
      change (xdrREAD3resIn (xPublicOf dataXdr)).reads ⊆ [[.u, .resok, .data, .dataVal]]
      rw [hpub]
      decide
    exact ⟨fun _ h => absurd h hxdr, fun _ => runIn_independent hreads m₁ m₂ msg len⟩

/-!
## The pointer that is not set
-/

/-- The members before `data` are decoded alike over any memory. -/
lemma writeHead_run (m : Memory Member) (b : Bytes) :
    xdrWRITE3argsHeadIn.run (fileCleared m) [] b = xdrWRITE3argsHeadIn.run .zeroed [] b :=
  xdrWRITE3argsHeadIn.run_clear (by decide) m b

lemma writeHead_decodes (m : Memory Member) (b : Bytes) :
    (xdrWRITE3argsHeadIn.run (fileCleared m) [] b).Decodes (xdrWRITE3argsHead.decode b) := by
  rw [writeHead_run]
  exact xdrWRITE3argsHeadIn.zeroed [] b

lemma writeData_agree_iff (m₁ m₂ : Memory Member) :
    Memory.AgreeOn dataWords [] (fileCleared m₁) (fileCleared m₂) ↔
      m₁ [.data, .dataLen] = m₂ [.data, .dataLen] ∧ m₁ [.data, .dataVal] = m₂ [.data, .dataVal] := by
  simp [Memory.AgreeOn, dataWords, Memory.clear]

lemma writeNoData_independent_iff (m₁ m₂ : Memory Member) (msg : Bytes) (len : Int) :
    Independent ((xdrToWRITE3argsIn nfs3DataNoDexdr).runIn m₁ msg len)
        ((xdrToWRITE3argsIn nfs3DataNoDexdr).runIn m₂ msg len) ↔
      ((xdrToWRITE3args (some msg) len nfs3DataNoDexdr).isSome = true →
        m₁ [.data, .dataLen] = m₂ [.data, .dataLen] ∧ m₁ [.data, .dataVal] = m₂ [.data, .dataVal]) := by
  have hleft := independent_iff_left ((writeHead_decodes m₁ (xdrmemCreate msg len)).skip noData
    (dataWords.map fun q => fileCleared m₁ ([] ++ q)))
    ((writeHead_decodes m₂ (xdrmemCreate msg len)).skip noData
      (dataWords.map fun q => fileCleared m₂ ([] ++ q)))
  apply hleft.trans
  change _ ↔ (((xdrWRITE3argsHead.skip noData).decode (xdrmemCreate msg len)).map Prod.fst).isSome = true → _
  rw [Option.isSome_map]
  have hagree : Memory.AgreeOn xdrWRITE3argsHeadIn.reads [] (fileCleared m₁) (fileCleared m₂) :=
    Memory.clear_agree (by decide) m₁ m₂
  refine forall_congr' fun hsome => ?_
  have hskip := InPlace.skip_left_iff hagree (writeHead_decodes m₁ _) hsome dataWords
  exact hskip.trans (writeData_agree_iff m₁ m₂)

/-- Once the members before `data` are decoded, its pointer is looked at. -/
lemma writeData_looked {b r : Bytes} {f : Counted UInt8 → WRITE3args}
    (hf : xdrWRITE3argsHead.decode b = some (f, r)) (m : Memory Member) :
    m [.data, .dataVal] ∈
      ((xdrWRITE3argsIn .enableDataDexdr).run (fileCleared m) [] b).looked := by
  have hdone : (xdrWRITE3argsHeadIn.run (fileCleared m) [] b).outcome = .done f r := by
    rw [(writeHead_decodes m b).2, hf, Outcome.ofOption]
  change _ ∈ ((xdrWRITE3argsHeadIn.run (fileCleared m) [] b).bind _).looked
  rw [Walk.bind_done hdone]
  apply List.mem_append_right
  rw [(Walk.map_logs _ _).1]
  exact List.mem_singleton_self _

/-- A pointer that is null, or not reached, makes the run that of zeroed memory. -/
lemma writeData_run {m : Memory Member} {b : Bytes}
    (h : ((xdrWRITE3argsHead.skip noData).decode b).isSome = true → m [.data, .dataVal] = 0) :
    (xdrWRITE3argsIn .enableDataDexdr).run (fileCleared m) [] b =
      (xdrWRITE3argsIn .enableDataDexdr).run .zeroed [] b := by
  cases hhead : xdrWRITE3argsHead.decode b with
  | none =>
    have hfail : (xdrWRITE3argsHeadIn.run .zeroed [] b).outcome = .failed := by
      rw [(xdrWRITE3argsHeadIn.zeroed [] b).2, hhead, Outcome.ofOption]
    change (xdrWRITE3argsHeadIn.run (fileCleared m) [] b).bind _ =
      (xdrWRITE3argsHeadIn.run .zeroed [] b).bind _
    rw [writeHead_run, Walk.bind_failed hfail, Walk.bind_failed hfail]
  | some x =>
    have hsome : ((xdrWRITE3argsHead.skip noData).decode b).isSome = true := by
      change ((xdrWRITE3argsHead.decode b).bind _).isSome = true
      rw [hhead]
      rfl
    apply (xdrWRITE3argsIn .enableDataDexdr).congr
    have hreads : (xdrWRITE3argsIn .enableDataDexdr).reads =
        [[.file, .data, .dataVal], [.data, .dataVal]] := rfl
    rw [hreads]
    intro q hq
    simp only [List.mem_cons, List.not_mem_nil, or_false] at hq
    cases hq with
    | inl hfile =>
      subst hfile
      rfl
    | inr hdata =>
      subst hdata
      exact h hsome

lemma writeData_independent_iff {dataXdr : Int} (hxdr : dataXdr ≠ nfs3DataNoDexdr) (m₁ m₂ : Memory Member)
    (msg : Bytes) (len : Int) :
    Independent ((xdrToWRITE3argsIn dataXdr).runIn m₁ msg len)
        ((xdrToWRITE3argsIn dataXdr).runIn m₂ msg len) ↔
      ((xdrToWRITE3args (some msg) len nfs3DataNoDexdr).isSome = true →
        m₁ [.data, .dataVal] = 0 ∧ m₂ [.data, .dataVal] = 0) := by
  have hpub : xPublicOf dataXdr = .enableDataDexdr := if_neg hxdr
  change Independent
    ((xdrWRITE3argsIn (xPublicOf dataXdr)).run (fileCleared m₁) [] (xdrmemCreate msg len))
    ((xdrWRITE3argsIn (xPublicOf dataXdr)).run (fileCleared m₂) [] (xdrmemCreate msg len)) ↔
    ((((xdrWRITE3argsHead.skip noData).decode (xdrmemCreate msg len)).map Prod.fst).isSome = true → _)
  rw [hpub, Option.isSome_map]
  constructor
  · intro h hsome
    obtain ⟨x, hx⟩ := Option.isSome_iff_exists.mp hsome
    obtain ⟨y, hy, _⟩ := Option.bind_eq_some_iff.mp hx
    exact ⟨h.null₁ _ (writeData_looked hy m₁), h.null₂ _ (writeData_looked hy m₂)⟩
  · intro h
    rw [writeData_run fun hsome => (h hsome).1, writeData_run fun hsome => (h hsome).2]
    have hdec := (xdrWRITE3argsIn .enableDataDexdr).zeroed [] (xdrmemCreate msg len)
    exact (independent_iff_left hdec hdec).mpr fun _ => rfl

/-- Every wrapper but two is independent of the memory of its result. Without `NFS3_DATA_DEXDR` the
`data` member of the result is what was there; with it, the pointer in a `WRITE3args` is looked at
as it was. -/
theorem decode_independent_iff (m₁ m₂ : Memory Member) (msg : Bytes) (len : Int) :
    (∀ w ∈ decodeCalls, Independent (w.runIn m₁ msg len) (w.runIn m₂ msg len)) ∧
    (∀ dataXdr,
      Independent ((xdrToREAD3resIn dataXdr).runIn m₁ msg len) ((xdrToREAD3resIn dataXdr).runIn m₂ msg len) ↔
        (dataXdr = nfs3DataNoDexdr → ∀ v, xdrToREAD3res (some msg) len dataXdr = some v →
          statusOk v.disc = true → m₁ [.u, .resok, .data, .dataLen] = m₂ [.u, .resok, .data, .dataLen])) ∧
    (∀ dataXdr,
      Independent ((xdrToWRITE3argsIn dataXdr).runIn m₁ msg len)
          ((xdrToWRITE3argsIn dataXdr).runIn m₂ msg len) ↔
        ((xdrToWRITE3args (some msg) len nfs3DataNoDexdr).isSome = true →
          if dataXdr = nfs3DataNoDexdr then
            m₁ [.data, .dataLen] = m₂ [.data, .dataLen] ∧ m₁ [.data, .dataVal] = m₂ [.data, .dataVal]
          else m₁ [.data, .dataVal] = 0 ∧ m₂ [.data, .dataVal] = 0)) := by
  refine ⟨?_, fun dataXdr => read_independent_iff dataXdr m₁ m₂ msg len, ?_⟩
  · intro w hw
    exact runIn_independent (decodeCalls_reads w hw) m₁ m₂ msg len
  · intro dataXdr
    by_cases hxdr : dataXdr = nfs3DataNoDexdr
    · subst hxdr
      rw [if_pos rfl]
      exact writeNoData_independent_iff m₁ m₂ msg len
    · rw [if_neg hxdr]
      exact writeData_independent_iff hxdr m₁ m₂ msg len

/-- `WRITE3args` of three bytes for the file handle `01`. -/
def threeBytesMsg : Bytes :=
  [0, 0, 0, 1, 1, 0, 0, 0, 0, 0, 0, 0, 0, 0, 0, 0, 0, 0, 0, 3, 0, 0, 0, 0, 0, 0, 0, 3, 9, 8, 7, 0]

/-- `data` holds `len` and `val`, and the rest is zero. -/
def dataMemory (len val : UInt64) : Memory Member := fun l =>
  if l = [.data, .dataLen] then len else if l = [.data, .dataVal] then val else 0

theorem decode_independent_iff_write :
    Independent ((xdrToWRITE3argsIn nfs3DataDexdr).runIn (dataMemory 0 0) threeBytesMsg 32)
      ((xdrToWRITE3argsIn nfs3DataDexdr).runIn (dataMemory 7 0) threeBytesMsg 32) ∧
    Independent (xdrToExportsIn.runIn (fun _ => 0) [0, 0, 0, 1] 4)
      (xdrToExportsIn.runIn (fun _ => 0xdeadbeef) [0, 0, 0, 1] 4) ∧
    Independent ((xdrToREAD3resIn nfs3DataDexdr).runIn (fun _ => 0) [0, 0, 0, 0] 4)
      ((xdrToREAD3resIn nfs3DataDexdr).runIn (fun _ => 0xdeadbeef) [0, 0, 0, 0] 4) :=
  ⟨((decode_independent_iff _ _ _ _).2.2 _).mpr fun _ => by decide,
    (decode_independent_iff _ _ _ _).1 xdrToExportsIn (by simp [decodeCalls]),
    ((decode_independent_iff _ _ _ _).2.1 _).mpr fun h => absurd h (by decide)⟩

/-- With `0xdeadbeef` where `data.data_val` is, the same message is written through it. -/
theorem leftover_pointer_written :
    ((xdrToWRITE3argsIn nfs3DataDexdr).runIn (dataMemory 0 0) threeBytesMsg 32).looked = [0, 0] ∧
    (∃ v, ((xdrToWRITE3argsIn nfs3DataDexdr).runIn (dataMemory 0 0) threeBytesMsg 32).outcome = .done v [] ∧
      xdrToWRITE3args (some threeBytesMsg) 32 nfs3DataDexdr = some v) ∧
    ((xdrToWRITE3argsIn nfs3DataDexdr).runIn (dataMemory 0 0xdeadbeef) threeBytesMsg 32).looked =
      [0, 0xdeadbeef] ∧
    ((xdrToWRITE3argsIn nfs3DataDexdr).runIn (dataMemory 0 0xdeadbeef) threeBytesMsg 32).outcome = .undefined ∧
    ¬ Independent ((xdrToWRITE3argsIn nfs3DataDexdr).runIn (dataMemory 0 0) threeBytesMsg 32)
      ((xdrToWRITE3argsIn nfs3DataDexdr).runIn (dataMemory 0 0xdeadbeef) threeBytesMsg 32) := by
  have hlooked : ((xdrToWRITE3argsIn nfs3DataDexdr).runIn (dataMemory 0 0xdeadbeef)
      threeBytesMsg 32).looked = [0, 0xdeadbeef] := by
    rfl
  refine ⟨by rfl, ⟨_, rfl, rfl⟩, hlooked, rfl, ?_⟩
  intro h
  have hnull := h.null₂ 0xdeadbeef (by rw [hlooked]; decide)
  cases hnull

end UnfsClient.Proofs
