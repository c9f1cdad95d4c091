import Passlib.Digest.Hmac

/-! # Multipart HMAC sessions

`compile_hmac(digest, key, multipart=True)` returns `hmac()`, and every call of it opens a
session on its own copy of the inner seed. A run is any interleaving of `hmac()`, `update`
and `finalize` calls across sessions. The sessions refine a machine that only records
the chunks each session was fed (`sessionRun_refines`), so every `finalize()` returns the
single-shot MAC of the chunks fed to its own session so far (`multipart_finalize_eq`). -/

namespace Passlib

/-- `compile_hmac(digest, key, multipart=True)`: the two seeds its `hmac()` closes over. -/
def compileHmacMultipart (D : Digest) (key : Bytes) : Except PyError (D.State × D.State) :=
  if D.blockSize < 16 then .error (.assertionError "block size too small")
  else .ok (hmacSeeds D key)

/-- `finalize()` of a session whose inner object is `inner`. -/
def hmacFinalize (D : Digest) (seeds : D.State × D.State) (inner : D.State) : Bytes :=
  D.digest (D.update seeds.2 (D.digest inner))

/-- A call on the multipart function or on one of its sessions. Sessions are numbered in
the order `hmac()` opened them. -/
inductive SessionCall
  | hmac
  | update (session : Nat) (chunk : Bytes)
  | finalize (session : Nat)

/-- One call against the inner objects of the open sessions, and what it returns. -/
def sessionStep (D : Digest) (seeds : D.State × D.State) (inners : List D.State) :
    SessionCall → List D.State × Option Bytes
  | .hmac => (inners ++ [seeds.1], none)
  | .update s c => (inners.modify (D.update · c) s, none)
  | .finalize s => (inners, inners[s]?.map (hmacFinalize D seeds))

/-- What each call of a run returns. -/
def sessionRun (D : Digest) (seeds : D.State × D.State) :
    List D.State → List SessionCall → List (Option Bytes)
  | _, [] => []
  | inners, c :: cs =>
    (sessionStep D seeds inners c).2 :: sessionRun D seeds (sessionStep D seeds inners c).1 cs

/-! ## The chunk machine -/

/-- The calls as the specification reads them: a session is the list of chunks passed to its
`update`, and `finalize` answers `mac` of their concatenation. -/
def chunkStep (mac : Bytes → Bytes) (sessions : List (List Bytes)) :
    SessionCall → List (List Bytes) × Option Bytes
  | .hmac => (sessions ++ [[]], none)
  | .update s c => (sessions.modify (· ++ [c]) s, none)
  | .finalize s => (sessions, sessions[s]?.map fun cs => mac cs.flatten)

def chunkRun (mac : Bytes → Bytes) : List (List Bytes) → List SessionCall → List (Option Bytes)
  | _, [] => []
  | sessions, c :: cs => (chunkStep mac sessions c).2 :: chunkRun mac (chunkStep mac sessions c).1 cs

/-- The inner object of a session fed `cs` from the seed. -/
def feed (D : Digest) (seed : D.State) (cs : List Bytes) : D.State := cs.foldl D.update seed

theorem hmacFinalize_feed (D : Digest) (key : Bytes) (cs : List Bytes) :
    hmacFinalize D (hmacSeeds D key) (feed D (hmacSeeds D key).1 cs) =
      hmacWith D (hmacSeeds D key) cs.flatten := by
  simp only [hmacFinalize, feed, hmacWith, hmacSeeds, Digest.digest_foldl_const,
    Digest.digest_update_const]

theorem modify_map_feed (D : Digest) (seed : D.State) (A : List (List Bytes)) (s : Nat)
    (c : Bytes) : (A.map (feed D seed)).modify (D.update · c) s =
      (A.modify (· ++ [c]) s).map (feed D seed) := by
  apply List.ext_getElem?
  intro m
  simp only [List.getElem?_modify, List.getElem?_map]
  cases A[m]? <;> split <;> simp [feed, List.foldl_append]

/-- One call on the sessions is the same call on the chunk machine, seen through `feed`. -/
theorem sessionStep_refines (D : Digest) (key : Bytes) (A : List (List Bytes))
    (c : SessionCall) :
    sessionStep D (hmacSeeds D key) (A.map (feed D (hmacSeeds D key).1)) c =
      ((chunkStep (hmacWith D (hmacSeeds D key)) A c).1.map (feed D (hmacSeeds D key).1),
        (chunkStep (hmacWith D (hmacSeeds D key)) A c).2) := by
  cases c with
  | hmac => simp [sessionStep, chunkStep, feed]
  | update s c => simp [sessionStep, chunkStep, modify_map_feed]
  | finalize s =>
    simp only [sessionStep, chunkStep, List.getElem?_map, Option.map_map, Prod.mk.injEq, true_and]
    exact Option.map_congr fun cs _ => hmacFinalize_feed D key cs

theorem sessionRun_refines (D : Digest) (key : Bytes) (calls : List SessionCall) :
    ∀ A : List (List Bytes),
      sessionRun D (hmacSeeds D key) (A.map (feed D (hmacSeeds D key).1)) calls =
        chunkRun (hmacWith D (hmacSeeds D key)) A calls := by
  induction calls with
  | nil => intro A; rfl
  | cons c cs ih => intro A; simp only [sessionRun, chunkRun, sessionStep_refines, ih]

/-! ## What each `finalize()` returns -/

/-- How many sessions `calls` opens. -/
def opened : List SessionCall → Nat
  | [] => 0
  | .hmac :: cs => opened cs + 1
  | .update _ _ :: cs => opened cs
  | .finalize _ :: cs => opened cs

/-- The chunks that `calls` passes to the `update` of session `s`, when `n` sessions are open
before them. Calls on other sessions and `finalize` calls contribute nothing. -/
def fedTo (s : Nat) : Nat → List SessionCall → List Bytes
  | _, [] => []
  | n, .hmac :: cs => fedTo s (n + 1) cs
  | n, .update t c :: cs => (if t = s ∧ s < n then [c] else []) ++ fedTo s n cs
  | n, .finalize _ :: cs => fedTo s n cs

/-- The chunk machine after `calls`. -/
def chunkAfter (mac : Bytes → Bytes) (A : List (List Bytes)) (calls : List SessionCall) :
    List (List Bytes) :=
  calls.foldl (fun A c => (chunkStep mac A c).1) A

theorem getD_append_nil (A : List (List Bytes)) (s : Nat) :
    (A ++ [[]]).getD s [] = A.getD s [] := by
  rcases Nat.lt_or_ge s A.length with h | h
  · exact List.getD_append _ _ _ _ h
  · rw [List.getD_append_right _ _ _ _ h, List.getD_eq_default _ _ h]
    cases s - A.length <;> rfl

theorem getD_modify_append (A : List (List Bytes)) (t s : Nat) (c : Bytes) :
    (A.modify (· ++ [c]) t).getD s [] =
      A.getD s [] ++ (if t = s ∧ s < A.length then [c] else []) := by
  rcases Nat.lt_or_ge s A.length with h | h
  · by_cases ht : t = s <;> simp [List.getD_eq_getElem?_getD, List.getElem?_modify, ht, h,
      List.getElem?_eq_getElem h]
  · simp [List.getD_eq_getElem?_getD, List.getElem?_eq_none, h, Nat.not_lt.mpr h]

/-- Session `s` of the chunk machine holds exactly the chunks fed to it. -/
theorem getElem?_chunkAfter (mac : Bytes → Bytes) (calls : List SessionCall) :
    ∀ (A : List (List Bytes)) (s : Nat), (chunkAfter mac A calls)[s]? =
      if s < A.length + opened calls then some (A.getD s [] ++ fedTo s A.length calls)
      else none := by
  induction calls with
  | nil =>
    intro A s
    by_cases h : s < A.length
    · simp [chunkAfter, opened, fedTo, h, List.getD_eq_getElem?_getD, List.getElem?_eq_getElem]
    · simp [chunkAfter, opened, h, List.getElem?_eq_none (Nat.le_of_not_lt h)]
  | cons c cs ih =>
    intro A s
    cases c with
    | hmac =>
      simp only [chunkAfter, List.foldl_cons, chunkStep] at ih ⊢
      rw [ih, List.length_append, List.length_singleton, getD_append_nil, opened, fedTo]
      simp only [Nat.add_assoc, Nat.add_comm 1]
    | update t c =>
      simp only [chunkAfter, List.foldl_cons, chunkStep] at ih ⊢
      rw [ih, List.length_modify, getD_modify_append, opened, fedTo, List.append_assoc]
    | finalize t => simp only [chunkAfter, List.foldl_cons, chunkStep] at ih ⊢; rw [ih]; rfl

theorem getElem?_chunkRun (mac : Bytes → Bytes) (calls : List SessionCall) :
    ∀ (A : List (List Bytes)) (i : Nat), (chunkRun mac A calls)[i]? =
      calls[i]?.map fun c => (chunkStep mac (chunkAfter mac A (calls.take i)) c).2 := by
  induction calls with
  | nil => intro A i; rfl
  | cons c cs ih =>
    intro A i
    cases i with
    | zero => simp [chunkRun, chunkAfter]
    | succ i => simp only [chunkRun, List.getElem?_cons_succ, ih, List.take_succ_cons, chunkAfter,
        List.foldl_cons]

/-- Every `finalize()` of every session, in any interleaving of calls across sessions, returns
the single-shot MAC of the chunks fed to that session before it. -/
theorem multipart_finalize_eq (D : Digest) (hB : 16 ≤ D.blockSize) (k : Bytes)
    (calls : List SessionCall) {i s : Nat} (hi : calls[i]? = some (.finalize s))
    (hs : s < opened (calls.take i)) :
    ∃ seeds mac, compileHmacMultipart D k = .ok seeds ∧ compileHmac D k = .ok mac ∧
      (sessionRun D seeds [] calls)[i]? = some (some (mac (fedTo s 0 (calls.take i)).flatten)) := by
  refine ⟨hmacSeeds D k, hmacWith D (hmacSeeds D k), by simp [compileHmacMultipart, hB],
    by simp [compileHmac, hB], ?_⟩
  have hrun := sessionRun_refines D k calls []
  rw [List.map_nil] at hrun
  rw [hrun, getElem?_chunkRun, hi]
  simp [chunkStep, getElem?_chunkAfter, hs]

theorem multipart_finalize_eq_interleaved :
    16 ≤ Digest.sample.blockSize ∧
    [.hmac, .hmac, .update 1 [1], .update 0 [2], .finalize 1][4]? = some (SessionCall.finalize 1) ∧
    1 < opened ([.hmac, .hmac, .update 1 [1], .update 0 [2], .finalize 1].take 4) ∧
    ∃ seeds mac, compileHmacMultipart Digest.sample [7] = .ok seeds ∧
      compileHmac Digest.sample [7] = .ok mac ∧
      (sessionRun Digest.sample seeds [] [.hmac, .hmac, .update 1 [1], .update 0 [2], .finalize 1])[4]? =
        some (some (mac (fedTo 1 0 ([.hmac, .hmac, .update 1 [1], .update 0 [2], .finalize 1].take 4)).flatten)) :=
  ⟨by decide, rfl, by decide, multipart_finalize_eq Digest.sample (by decide) [7] _ rfl (by decide)⟩

end Passlib
