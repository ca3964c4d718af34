import Linglongta.Server.Wire
import Linglongta.IndexLog.Recovery

/-!
# The life of a server

Besides requests the server takes two commands.  `sync index` and `sync all` make the assign thread
call `sync_storage`; the object is the word of the command, and any other one would make
`sync_storage` abort.  `power halt` makes it call `sync_storage` and `close_storage` and end the
process; the server may be started again, with `open_storage`, on the files that are left.

`Life.round` is a round of `query_io_event_handler` with what it does to the storage, and
`Life.run` is the life of a server: starts, requests, commands.  `server_refines` says that the
clients do not see any of this: what they read is what they would read from a map, across all
commands and restarts.
-/

namespace Linglongta

open CString Prog

/-! ## Visits -/

/-- What arrives on a connection. -/
inductive Visit
  /-- A request, or a head that is refused. -/
  | exchange (x : Exchange)
  /-- The head of a sync command, and what comes behind it. -/
  | sync (s d : List UInt8)
  /-- The head of a power command, and what comes behind it. -/
  | halt (s d : List UInt8)

/-- The reads. -/
def Visit.arrivals : Visit → List ReadResult
  | exchange x => x.arrivals
  | sync s d => [.ok (s ++ (mcTermStr ++ d))]
  | halt s d => [.ok (s ++ (mcTermStr ++ d))]

/-- What happens to a server. -/
inductive LifeEvent
  /-- The process is started. -/
  | start (largest : ℕ)
  /-- A client connects. -/
  | visit (v : Visit)

namespace Life

variable (slabAlloc : ℕ → Option (ℕ → UInt8)) (bsp : Handle)

/-- What a round of the handler does to the storage; none for the `abort` of `sync_storage`. -/
def roundWorld (t : QueryTask) (w : World) : Option World :=
  match t.state with
  | .doSync => syncStorage noFaults completeWrite t.queryRequest.key w
  | .doPower => (syncStorage noFaults completeWrite (ascii ['a', 'l', 'l']) w).map fun w =>
      (closeStorage {} bsp w).2
  | _ => some w

/-- One round of the handler. -/
def round (a : Answer) : Conn → World → Option (Conn × World)
  | .watched t, w => (roundWorld bsp t w).map fun w' => (Conn.round a (.watched t), w')
  | .looping t, w => (roundWorld bsp t w).map fun w' => (Conn.round a (.looping t), w')
  | c, w => some (c, w)

/-- At most `n` further rounds, up to the next read. -/
def settle : ℕ → Conn → World → Option (Conn × World)
  | n + 1, .looping t, w =>
    if t.state = .recvReqHead ∨ t.state = .recvReqData then some (.looping t, w)
    else (round bsp { read := .ok [], slabAlloc, needLoop := true } (.looping t) w).bind fun r =>
      settle n r.1 r.2
  | _, c, w => some (c, w)

/-- One read with this result, and the rounds up to the next one. -/
def feed (c : Conn) (w : World) (read : ReadResult) : Option (Conn × World) :=
  (round bsp { read, slabAlloc, needLoop := true } c w).bind fun r => settle slabAlloc bsp 3 r.1 r.2

/-- Reads with these results. -/
def serve : Conn → World → List ReadResult → Option (Conn × World)
  | c, w, [] => some (c, w)
  | c, w, read :: reads => (feed slabAlloc bsp c w read).bind fun r => serve r.1 r.2 reads

/-- A worker takes the task: the bytes that the client reads and the world. -/
def answer (t : QueryTask) (w : World) : Option (List UInt8 × World) :=
  match Service.result (exec (handle noFaults) (handleRequest Call.prog t) [] w) with
  | some (t', w') =>
    match sendResponse t'.queryResponse.writes t' with
    | .ok _ => some (t'.queryResponse.sent, w')
    | .error _ => none
  | none => none

/-- One connection: the bytes that the client reads and the process, none if the server does not
answer. -/
def visit (c : Client) (v : Visit) : Option (List UInt8 × Client) :=
  match c.bsp with
  | none => none
  | some bsp =>
    match serve slabAlloc bsp (.watched acceptedTask) c.world v.arrivals with
    | some (.dispatched t, w) => (answer t w).map fun r => (r.1, ⟨r.2, some bsp⟩)
    | some (.destroyed _, w) => some ([], ⟨w, some bsp⟩)
    | some (.exited _, w) => some ([], ⟨w, none⟩)
    | _ => none

/-- One event in the life of a server. -/
def step (c : Client) : LifeEvent → Option (List UInt8 × Client)
  | .start largest =>
    match c.bsp with
    | some _ => none
    | none =>
      let r := openStorage {} largest c.world
      some ([], ⟨r.world, r.bsp⟩)
  | .visit v => visit slabAlloc c v

/-- The life of a server: what the clients read, and the process. -/
def run : Client → List LifeEvent → Option (List (List UInt8) × Client)
  | c, [] => some ([], c)
  | c, e :: es =>
    match step slabAlloc c e with
    | none => none
    | some (bytes, c') => (run c' es).map fun r => (bytes :: r.1, r.2)

end Life

/-- What clients of a map read: nothing of what happens to the server changes the map, or is
answered. -/
def Table.life (m : Table) : List LifeEvent → List (List UInt8)
  | [] => []
  | .start _ :: es => [] :: m.life es
  | .visit (.exchange (.request r _ _ _)) :: es =>
    r.response (m (r.key.take keyLen)) :: (m.apply r).life es
  | .visit (.exchange (.refused _ _)) :: es => mcErrStr :: m.life es
  | .visit (.sync _ _) :: es => [] :: m.life es
  | .visit (.halt _ _) :: es => [] :: m.life es

/-- The event may happen: a server is started when it does not run, and not with a smaller table; a
visitor comes when it runs, with a request that the storage allows or with a command that is complete
with the first read. -/
def LifeEvent.Allowed (slabAlloc : ℕ → Option (ℕ → UInt8)) (c : Client) (n : ℕ) : LifeEvent → Prop
  | .start largest => c.bsp = none ∧ n ≤ effectiveSize largest ∧
      effectiveSize largest < beginningSize * 2 ^ maxBlockCnt
  | .visit (.exchange x) => c.bsp ≠ none ∧ x.Valid slabAlloc ∧
      ∀ r, x.request? = some r → c.Allows n (.call r.call)
  | .visit (.sync s d) => c.bsp ≠ none ∧ IsHead s ∧
      (s ++ (mcTermStr ++ d)).length ≤ maxQueryHeaderSize ∧ SyncLine s
  | .visit (.halt s d) => c.bsp ≠ none ∧ IsHead s ∧
      (s ++ (mcTermStr ++ d)).length ≤ maxQueryHeaderSize ∧ PowerLine s

/-- The size with which the store was opened last, after an event. -/
def LifeEvent.nextSize (n : ℕ) : LifeEvent → ℕ
  | .start largest => effectiveSize largest
  | .visit _ => n

/-- Every event of a life may happen. -/
def Life.Lawful (slabAlloc : ℕ → Option (ℕ → UInt8)) : ℕ → Client → List LifeEvent → Prop
  | _, _, [] => True
  | n, c, e :: es => e.Allowed slabAlloc c n ∧
      ∀ bytes c', Life.step slabAlloc c e = some (bytes, c') →
        Life.Lawful slabAlloc (e.nextSize n) c' es

/-! ## Rounds that leave the storage alone -/

/-- The handler is about to obey a command, or the connection is over. -/
def Conn.Spent : Conn → Prop
  | .watched t => t.state = .doSync ∨ t.state = .doPower ∨ t.state = .destroyRecv
  | .looping t => t.state = .doSync ∨ t.state = .doPower ∨ t.state = .destroyRecv
  | .dispatched _ => False
  | .destroyed _ => True
  | .exited _ => True
  | .aborted _ => True

section Quiet

variable {slabAlloc : ℕ → Option (ℕ → UInt8)} {bsp : Handle} {c : Conn} {w : World}

/-- A connection that is spent stays spent. -/
lemma Conn.Spent.round (hc : c.Spent) (a : Answer) : (c.round a).Spent := by
  have htask : ∀ (needLoop : Bool) (t : QueryTask),
      t.state = .doSync ∨ t.state = .doPower ∨ t.state = .destroyRecv →
      (Conn.ofRound (queryIoRound a needLoop t)).Spent := by
    rintro needLoop t (h | h | h)
    · simp only [queryIoRound, h, changeState_destroyRecv]
      cases needLoop <;> exact Or.inr (Or.inr rfl)
    · simp only [queryIoRound, h]
      trivial
    · simp only [queryIoRound, h]
      trivial
  cases c with
  | watched t => exact htask _ t hc
  | looping t => exact htask _ t hc
  | dispatched t => exact hc
  | destroyed t => exact hc
  | exited t => exact hc
  | aborted x => exact hc

lemma Conn.Spent.settle (n : ℕ) (hc : c.Spent) : (Conn.settle slabAlloc n c).Spent := by
  induction n generalizing c with
  | zero => exact hc
  | succ n ih =>
    cases c with
    | looping t =>
      rw [Conn.settle]
      split
      · exact hc
      · exact ih (hc.round _)
    | watched t => exact hc
    | dispatched t => exact hc
    | destroyed t => exact hc
    | exited t => exact hc
    | aborted x => exact hc

lemma Conn.Spent.serve (hc : c.Spent) (reads : List ReadResult) :
    (Conn.serve slabAlloc c reads).Spent := by
  induction reads generalizing c with
  | nil => exact hc
  | cons read reads ih => exact ih ((hc.round _).settle 3)

/-- A round of a connection that is not spent leaves the storage alone. -/
lemma Life.round_quiet (hc : ¬c.Spent) (a : Answer) :
    Life.round bsp a c w = some (c.round a, w) := by
  have hworld : ∀ t : QueryTask, ¬(t.state = .doSync ∨ t.state = .doPower ∨
      t.state = .destroyRecv) → Life.roundWorld bsp t w = some w := by
    intro t ht
    unfold Life.roundWorld
    split
    · exact absurd (Or.inl ‹_›) ht
    · exact absurd (Or.inr (Or.inl ‹_›)) ht
    · rfl
  cases c with
  | watched t => simp only [Life.round, hworld t hc, Option.map_some]
  | looping t => simp only [Life.round, hworld t hc, Option.map_some]
  | dispatched t => rfl
  | destroyed t => rfl
  | exited t => rfl
  | aborted x => rfl

lemma Life.settle_quiet (n : ℕ) (hc : ¬(Conn.settle slabAlloc n c).Spent) :
    Life.settle slabAlloc bsp n c w = some (Conn.settle slabAlloc n c, w) := by
  induction n generalizing c with
  | zero => cases c <;> rfl
  | succ n ih =>
    cases c with
    | looping t =>
      have hnot : ¬Conn.Spent (.looping t) := fun h => hc (h.settle (n + 1))
      rw [Life.settle, Conn.settle]
      rw [Conn.settle] at hc
      split
      · rfl
      · rename_i hread
        rw [if_neg hread] at hc
        rw [Life.round_quiet hnot]
        exact ih hc
    | watched t => rfl
    | dispatched t => rfl
    | destroyed t => rfl
    | exited t => rfl
    | aborted x => rfl

/-- So do the reads of a connection that does not end up spent. -/
lemma Life.serve_quiet (reads : List ReadResult) (hc : ¬(Conn.serve slabAlloc c reads).Spent) :
    Life.serve slabAlloc bsp c w reads = some (Conn.serve slabAlloc c reads, w) := by
  induction reads generalizing c with
  | nil => rfl
  | cons read reads ih =>
    have hfeed : ¬(Conn.feed slabAlloc c read).Spent := fun h => hc (h.serve reads)
    have hround : ¬c.Spent := fun h => hfeed ((h.round _).settle 3)
    rw [Life.serve, Life.feed, Life.round_quiet hround, Option.bind_some,
      Life.settle_quiet 3 hfeed]
    exact ih hc

end Quiet

/-! ## The storage -/

section Storage

variable {n : ℕ} {m : Kv} {w : World}

/-- The logger and the journal are no part of the map. -/
lemma Represents.flushed (hr : Represents n m w) (il : IndexLogger) (file : List UInt8) :
    Represents n m { w with logger := il, journal := file } := by
  have hs := hr.sound
  refine ⟨⟨?_, hs.slots, hs.mirrored, hs.bounded, hs.tight⟩, hr.table, fun k => ?_⟩
  · exact ⟨hs.usable.inited, hs.usable.types, hs.usable.sizes, hs.usable.opened, hs.usable.indexed,
      hs.usable.present, hs.usable.whole⟩
  · exact (hr.stored k).congr rfl (fun _ => rfl) rfl

lemma Represents.syncHeaders (bs : List ℕ) (hr : Represents n m w)
    (hbs : ∀ b ∈ bs, b < w.blockTypeCount) : Represents n m (Linglongta.syncHeaders noFaults bs w) := by
  induction bs generalizing w with
  | nil => exact hr
  | cons b bs ih =>
    have hb : b < w.blockTypeCount := hbs b (List.mem_cons_self ..)
    rw [Linglongta.syncHeaders, exec_syncDataFileHeader noFaults hb]
    exact ih (hr.syncHeader hb) fun b' hb' => by simpa using hbs b' (List.mem_cons_of_mem _ hb')

/-- `sync_storage` knows the objects of the sync command, and keeps the map. -/
lemma Represents.syncStorage (hr : Represents n m w) {object : List UInt8}
    (hobject : strcaseEq object (ascii ['i', 'n', 'd', 'e', 'x']) = true ∨
      strcaseEq object (ascii ['a', 'l', 'l']) = true) :
    ∃ w', Linglongta.syncStorage noFaults completeWrite object w = some w' ∧
      Represents n m w' := by
  unfold Linglongta.syncStorage
  split
  · exact ⟨_, rfl, hr.flushed _ _⟩
  · rename_i hindex
    rw [if_pos (hobject.resolve_left hindex)]
    refine ⟨_, rfl, (hr.flushed _ _).syncHeaders _ fun b hb => ?_⟩
    exact List.mem_range.1 hb

end Storage

/-! ## Commands -/

/-- The word that a command was accepted with is one that it knows. -/
lemma accepts_parseKeyCmd {accepts : List UInt8 → Bool} {saveptr : List UInt8} {qr : QueryRequest}
    (h : (parseKeyCmd accepts saveptr qr).1 = true) :
    accepts (parseKeyCmd accepts saveptr qr).2.key = true := by
  unfold parseKeyCmd at h ⊢
  split
  · rename_i key hkey
    rw [hkey] at h
    exact h
  · rename_i hkey
    rw [hkey] at h
    cases h

section Commands

variable {qr : QueryRequest} {s d : List UInt8} {slabAlloc : ℕ → Option (ℕ → UInt8)}

/-- A head that is accepted was parsed by the function of its command. -/
lemma accepted_args (hhead : qr.head = s ++ mcTermStr) (hret : (parseMemcachedStringHead qr).1 = 0) :
    (parseMemcachedStringHead qr).2.parseStatus = .succ ∧
      ∃ rest qr', ((parseMemcachedStringHead qr).2.cmdType.parseArgs rest qr').1 = true ∧
        (parseMemcachedStringHead qr).2.key =
          ((parseMemcachedStringHead qr).2.cmdType.parseArgs rest qr').2.key := by
  rcases parse_cases hhead with ⟨type, rest, -, -, hparse⟩ | ⟨-, hparse⟩
  · rw [hparse] at hret ⊢
    have hargs := (handleCmd_eq_zero_iff _ _).1 hret
    rw [cmdType_handleCmd]
    refine ⟨by rw [handleCmd, if_pos hargs], _, _, hargs, by rw [handleCmd, if_pos hargs]⟩
  · rw [hparse] at hret
    exact absurd hret retParseReqFailed_ne_zero

/-- A sync command is accepted with an object that `sync_storage` knows. -/
lemma parse_syncLine (hhead : qr.head = s ++ mcTermStr) (hline : SyncLine s) :
    (parseMemcachedStringHead qr).1 = 0 ∧ (parseMemcachedStringHead qr).2.cmdType = .sync ∧
      (parseMemcachedStringHead qr).2.parseStatus = .succ ∧
      (strcaseEq (parseMemcachedStringHead qr).2.key (ascii ['i', 'n', 'd', 'e', 'x']) = true ∨
        strcaseEq (parseMemcachedStringHead qr).2.key (ascii ['a', 'l', 'l']) = true) := by
  have hparsed : (parseMemcachedStringHead qr).1 = 0 ∧
      (parseMemcachedStringHead qr).2.cmdType = .sync ↔ SyncLine s :=
    parse_succeeds_iff_line hhead (by decide) fun _ _ => parseSyncCmd_iff
  obtain ⟨hret, hcmd⟩ := hparsed.2 hline
  obtain ⟨hstatus, rest, qr', hargs, hkey⟩ := accepted_args hhead hret
  rw [hcmd] at hargs hkey
  refine ⟨hret, hcmd, hstatus, ?_⟩
  rw [hkey]
  exact Bool.or_eq_true_iff.1 (accepts_parseKeyCmd hargs)

lemma parse_powerLine (hhead : qr.head = s ++ mcTermStr) (hline : PowerLine s) :
    (parseMemcachedStringHead qr).1 = 0 ∧ (parseMemcachedStringHead qr).2.cmdType = .power ∧
      (parseMemcachedStringHead qr).2.parseStatus = .succ := by
  have hparsed : (parseMemcachedStringHead qr).1 = 0 ∧
      (parseMemcachedStringHead qr).2.cmdType = .power ↔ PowerLine s :=
    parse_succeeds_iff_line hhead (by decide) fun _ _ => parsePowerCmd_iff
  obtain ⟨hret, hcmd⟩ := hparsed.2 hline
  exact ⟨hret, hcmd, (accepted_args hhead hret).1⟩

/-- A head that arrives in one piece leads to what is done with the request. -/
lemma Life.feed_received (hs : IsHead s)
    (hlen : (s ++ (mcTermStr ++ d)).length ≤ maxQueryHeaderSize) (bsp : Handle) (w : World) :
    Life.feed slabAlloc bsp (.watched acceptedTask) w (.ok (s ++ (mcTermStr ++ d))) =
      Life.settle slabAlloc bsp 2 (Conn.ofResult (actOnRequest slabAlloc d
        (parseMemcachedStringHead (headRequest s d)) (receivedTask (s ++ (mcTermStr ++ d))))) w := by
  have hne : s ++ (mcTermStr ++ d) ≠ [] := by simp [mcTermStr]
  have hround : Conn.round { read := .ok (s ++ (mcTermStr ++ d)), slabAlloc, needLoop := true }
      (.watched acceptedTask) =
      .looping (receivedTask (s ++ (mcTermStr ++ d))) := by
    have hstate : acceptedTask.state = .recvReqHead := rfl
    simp only [Conn.round, queryIoRound, hstate, Conn.ofRound_bind, recvReqHead_accepted hne hlen]
    rfl
  have hstate : (receivedTask (s ++ (mcTermStr ++ d))).state = .parseReqHead := rfl
  have hquiet : ¬Conn.Spent (.watched acceptedTask) := by simp [Conn.Spent, acceptedTask]
  have hquiet' : ¬Conn.Spent (.looping (receivedTask (s ++ (mcTermStr ++ d)))) := by
    simp [Conn.Spent, hstate]
  rw [Life.feed, Life.round_quiet hquiet, hround, Option.bind_some, Life.settle,
    if_neg (by simp [hstate]), Life.round_quiet hquiet', Option.bind_some]
  simp only [Conn.round, queryIoRound, hstate, Conn.ofRound_bind, parse_receivedTask hs hlen]

/-- A sync command: `sync_storage` is called and the connection is closed. -/
lemma Life.serve_sync (slabAlloc : ℕ → Option (ℕ → UInt8)) (bsp : Handle) (hs : IsHead s)
    (hlen : (s ++ (mcTermStr ++ d)).length ≤ maxQueryHeaderSize) (hline : SyncLine s) {n : ℕ}
    {m : Kv} {w : World} (hr : Represents n m w) :
    ∃ t w', Life.serve slabAlloc bsp (.watched acceptedTask) w [.ok (s ++ (mcTermStr ++ d))] =
      some (.destroyed t, w') ∧ Represents n m w' := by
  obtain ⟨hret, hcmd, hstatus, hobject⟩ := parse_syncLine (head_headRequest hs hlen) hline
  obtain ⟨w', hsync, hr'⟩ := hr.syncStorage hobject
  let t : QueryTask := { receivedTask (s ++ (mcTermStr ++ d)) with
    state := .doSync
    queryRequest := (parseMemcachedStringHead (headRequest s d)).2 }
  have hact : Conn.ofResult (actOnRequest slabAlloc d (parseMemcachedStringHead (headRequest s d))
      (receivedTask (s ++ (mcTermStr ++ d)))) = .looping t := by
    simp only [actOnRequest, hret, hstatus, hcmd, and_self, if_true]
    rfl
  have hstate : t.state = .doSync := rfl
  have hworld : Life.roundWorld bsp t w = some w' := by
    simp only [Life.roundWorld, hstate]
    exact hsync
  have hround : Conn.round { read := .ok [], slabAlloc, needLoop := true } (.looping t) =
      .looping { t with state := .destroyRecv } := by
    simp only [Conn.round, queryIoRound, hstate, changeState_destroyRecv]
    rfl
  refine ⟨{ t with state := .destroyRecv }, w', ?_, hr'⟩
  rw [Life.serve, Life.feed_received hs hlen, hact, Life.settle, if_neg (by simp [hstate]),
    Life.round, hworld, hround]
  rfl

/-- A power command: the storage is synced and closed, and the process ends. -/
lemma Life.serve_halt (slabAlloc : ℕ → Option (ℕ → UInt8)) (bsp : Handle) (hs : IsHead s)
    (hlen : (s ++ (mcTermStr ++ d)).length ≤ maxQueryHeaderSize) (hline : PowerLine s) {n : ℕ}
    {m : Kv} {w : World} (hr : Represents n m w) :
    ∃ t w' w₁, Life.serve slabAlloc bsp (.watched acceptedTask) w
      [.ok (s ++ (mcTermStr ++ d))] = some (.exited t, w') ∧ Represents n m w₁ ∧ Rests w₁ w' := by
  obtain ⟨hret, hcmd, hstatus⟩ := parse_powerLine (head_headRequest hs hlen) hline
  have hall : strcaseEq (ascii ['a', 'l', 'l']) (ascii ['a', 'l', 'l']) = true := by decide
  obtain ⟨w', hsync, hr'⟩ := hr.syncStorage (Or.inr hall)
  obtain ⟨-, w₁, hr₁, hrest⟩ := hr'.close bsp
  let t : QueryTask := { receivedTask (s ++ (mcTermStr ++ d)) with
    state := .doPower
    queryRequest := (parseMemcachedStringHead (headRequest s d)).2 }
  have hact : Conn.ofResult (actOnRequest slabAlloc d (parseMemcachedStringHead (headRequest s d))
      (receivedTask (s ++ (mcTermStr ++ d)))) = .looping t := by
    simp only [actOnRequest, hret, hstatus, hcmd, and_self, if_true]
    rfl
  have hstate : t.state = .doPower := rfl
  have hworld : Life.roundWorld bsp t w = some (closeStorage {} bsp w').2 := by
    simp only [Life.roundWorld, hstate, hsync, Option.map_some]
  have hround :
      Conn.round { read := .ok [], slabAlloc, needLoop := true } (.looping t) = .exited t := by
    simp only [Conn.round, queryIoRound, hstate]
    rfl
  refine ⟨t, (closeStorage {} bsp w').2, w₁, ?_, hr₁, hrest⟩
  rw [Life.serve, Life.feed_received hs hlen, hact, Life.settle, if_neg (by simp [hstate]),
    Life.round, hworld, hround]
  rfl

end Commands

/-! ## Every life -/

section Lives

variable {slabAlloc : ℕ → Option (ℕ → UInt8)} {n : ℕ} {tbl : Table} {m : Kv} {w : World}
variable {bsp : Handle}

/-- A client reads the answer of the worker that gets the task. -/
lemma Life.visit_dispatched {v : Visit} {t t' : QueryTask} {w' : World} {bytes : List UInt8}
    (hserve : Conn.serve slabAlloc (.watched acceptedTask) v.arrivals = .dispatched t)
    (hresult : Service.result (exec (handle noFaults) (handleRequest Call.prog t) [] w) =
      some (t', w')) (hsaid : t'.queryResponse.Says bytes) :
    Life.visit slabAlloc ⟨w, some bsp⟩ v = some (bytes, ⟨w', some bsp⟩) := by
  have hquiet : ¬(Conn.serve slabAlloc (.watched acceptedTask) v.arrivals).Spent := by
    rw [hserve]
    exact id
  have hworld : Life.serve slabAlloc bsp (.watched acceptedTask) w v.arrivals =
      some (.dispatched t, w) := by
    rw [Life.serve_quiet _ hquiet, hserve]
  simp only [Life.visit, hworld, Life.answer, hresult, hsaid.sendResponse, hsaid.sent,
    Option.map_some]

/-- One visit, to a server whose store holds a map. -/
lemma Life.visit_spec (hfiled : tbl.Filed m) (hr : Represents n m w) {v : Visit}
    (hallowed : (LifeEvent.visit v).Allowed slabAlloc ⟨w, some bsp⟩ n) :
    ∃ bytes c' m', ∃ tbl' : Table, Life.visit slabAlloc ⟨w, some bsp⟩ v = some (bytes, c') ∧
      tbl'.Filed m' ∧ Client.Inv n m' c' ∧ (c'.bsp = none ↔ ∃ s d, v = .halt s d) ∧
      ∀ es, tbl.life (.visit v :: es) = bytes :: tbl'.life es := by
  cases v with
  | exchange x =>
    obtain ⟨-, hvalid, hallows⟩ := hallowed
    cases x with
    | refused s d =>
      obtain ⟨t, hserve, hstate, hparse, hresp⟩ := refused_dispatched hvalid
      obtain ⟨t', hresult, hsaid⟩ := refused_served hstate hparse hresp w
      exact ⟨_, _, m, tbl, Life.visit_dispatched (v := .exchange (.refused s d)) hserve hresult
        hsaid, hfiled, hr, by simp, fun _ => rfl⟩
    | request r s d reads =>
      obtain ⟨t, hserve, ht⟩ := request_dispatched hvalid
      obtain ⟨t', w', hresult, -, hr', hsaid⟩ := ht.served hr (hallows r rfl)
      have hkey : 0 ∉ r.key := hvalid.1.noNul
      refine ⟨_, _, _, tbl.apply r, Life.visit_dispatched
        (v := .exchange (.request r s d reads)) hserve hresult hsaid, hfiled.apply hkey, hr',
        by simp, fun es => ?_⟩
      rw [Table.life, hfiled r.key hkey]
  | sync s d =>
    obtain ⟨-, hs, hlen, hline⟩ := hallowed
    obtain ⟨t, w', hserve, hr'⟩ := Life.serve_sync slabAlloc bsp hs hlen hline hr
    refine ⟨[], ⟨w', some bsp⟩, m, tbl, ?_, hfiled, hr', by simp, fun _ => rfl⟩
    simp only [Life.visit, Visit.arrivals, hserve]
  | halt s d =>
    obtain ⟨-, hs, hlen, hline⟩ := hallowed
    obtain ⟨t, w', w₁, hserve, hr₁, hrest⟩ := Life.serve_halt slabAlloc bsp hs hlen hline hr
    refine ⟨[], ⟨w', none⟩, m, tbl, ?_, hfiled, ⟨w₁, hr₁, hrest⟩, by simp, fun _ => rfl⟩
    simp only [Life.visit, Visit.arrivals, hserve]

/-- One event in the life of a server. -/
lemma Life.step_spec (hfiled : tbl.Filed m) {c : Client} (hc : c.Inv n m) {e : LifeEvent}
    (hallowed : e.Allowed slabAlloc c n) :
    ∃ bytes c' m', ∃ tbl' : Table, Life.step slabAlloc c e = some (bytes, c') ∧ tbl'.Filed m' ∧
      Client.Inv (e.nextSize n) m' c' ∧ (c'.bsp = none ↔ ∃ s d, e = .visit (.halt s d)) ∧
      ∀ es, tbl.life (e :: es) = bytes :: tbl'.life es := by
  obtain ⟨w, bsp⟩ := c
  cases e with
  | start largest =>
    obtain ⟨rfl, hsize, hlimit⟩ := hallowed
    obtain ⟨w₁, hr, hrest⟩ := hc
    obtain ⟨w', hopen, hr'⟩ := hr.reopen hrest hsize hlimit
    refine ⟨[], ⟨w', some ⟨true, true, true⟩⟩, m, tbl, ?_, hfiled, hr', by simp, fun _ => rfl⟩
    simp only [Life.step, hopen]
  | visit v =>
    cases bsp with
    | none =>
      cases v with
      | exchange x => exact absurd rfl hallowed.1
      | sync s d => exact absurd rfl hallowed.1
      | halt s d => exact absurd rfl hallowed.1
    | some bsp =>
      obtain ⟨bytes, c', m', tbl', hvisit, hfiled', hc', hbsp, hlife⟩ :=
        Life.visit_spec hfiled hc hallowed
      exact ⟨bytes, c', m', tbl', hvisit, hfiled', hc', by simpa using hbsp, hlife⟩

/-- Every life of a server whose store holds a map. -/
lemma Life.run_spec (es : List LifeEvent) (hfiled : tbl.Filed m) {c : Client} (hc : c.Inv n m)
    (hlawful : Life.Lawful slabAlloc n c es) :
    ∃ c', Life.run slabAlloc c es = some (tbl.life es, c') := by
  induction es generalizing n tbl m c with
  | nil => exact ⟨c, rfl⟩
  | cons e es ih =>
    obtain ⟨hallowed, hrest⟩ := hlawful
    obtain ⟨bytes, c', m', tbl', hstep, hfiled', hc', -, hlife⟩ :=
      Life.step_spec hfiled hc hallowed
    obtain ⟨c'', hrun⟩ := ih hfiled' hc' (hrest _ _ hstep)
    refine ⟨c'', ?_⟩
    simp only [Life.run, hstep, hrun, Option.map_some, hlife]

end Lives

/-- The life of a server that is first started in an empty directory.  It is started, visited,
ordered to sync and halted, again and again.  If all this may happen then the server answers every
visitor, and what they read is what they would read from a map of keys, cut off after `KEY_LEN`
bytes, to values: no command and no restart changes an answer, and `sync_storage` does not abort. -/
theorem server_refines {slabAlloc : ℕ → Option (ℕ → UInt8)} {w₀ : World} (hblank : Blank w₀)
    {es : List LifeEvent} (hlawful : Life.Lawful slabAlloc 0 ⟨w₀, none⟩ es) :
    ∃ c, Life.run slabAlloc ⟨w₀, none⟩ es = some (Table.life (fun _ => none) es, c) :=
  Life.run_spec es (fun _ _ => rfl) hblank.inv hlawful

/-- A life goes on after an event, whatever the server has become. -/
lemma Life.Lawful.cons {slabAlloc : ℕ → Option (ℕ → UInt8)} {n : ℕ} {tbl : Table} {m : Kv}
    (hfiled : tbl.Filed m) {c : Client} (hc : c.Inv n m) {e : LifeEvent} {es : List LifeEvent}
    (hallowed : e.Allowed slabAlloc c n)
    (hrest : ∀ (c' : Client) (m' : Kv) (tbl' : Table), tbl'.Filed m' →
      Client.Inv (e.nextSize n) m' c' → (c'.bsp = none ↔ ∃ s d, e = .visit (.halt s d)) →
      Life.Lawful slabAlloc (e.nextSize n) c' es) :
    Life.Lawful slabAlloc n c (e :: es) := by
  refine ⟨hallowed, fun bytes c' hstep => ?_⟩
  obtain ⟨bytes₁, c₁, m₁, tbl₁, hstep₁, hfiled₁, hc₁, hbsp, -⟩ :=
    Life.step_spec hfiled hc hallowed
  obtain ⟨-, rfl⟩ := Prod.mk.inj (Option.some.inj (hstep.symm.trans hstep₁))
  exact hrest _ m₁ tbl₁ hfiled₁ hc₁ hbsp

/-- A set, a sync, a halt; and after a restart a get. -/
def twoLives : List LifeEvent :=
  [.start 1024,
    .visit (.exchange (.request (.set (ascii ['a']) [2])
      (ascii ['s', 'e', 't', ' ', 'a', ' ', '0', ' ', '0', ' ', '1']) [2, 13, 10] [])),
    .visit (.sync (ascii ['s', 'y', 'n', 'c', ' ', 'a', 'l', 'l']) []),
    .visit (.halt (ascii ['p', 'o', 'w', 'e', 'r', ' ', 'h', 'a', 'l', 't']) []),
    .start 1024,
    .visit (.exchange (.request (.get (ascii ['a'])) (ascii ['g', 'e', 't', ' ', 'a']) [] []))]

lemma twoLives_lawful : Life.Lawful plentyMemory 0 ⟨World.empty, none⟩ twoLives := by
  obtain ⟨w, hopen, hl, hcfg, hindex, hentry, -⟩ := exists_small_store
  have hfiled : Table.Filed (fun _ => none) fun _ => none := fun _ _ => rfl
  have hstart : (LifeEvent.start 1024).Allowed plentyMemory ⟨World.empty, none⟩ 0 :=
    ⟨rfl, Nat.zero_le _, by decide⟩
  have hset : Exchange.Valid plentyMemory (.request (.set (ascii ['a']) [2])
      (ascii ['s', 'e', 't', ' ', 'a', ' ', '0', ' ', '0', ' ', '1']) [2, 13, 10] []) := by
    refine ⟨⟨⟨by decide, by decide, by decide⟩, ?_, by decide, by decide, by decide⟩, by decide,
      by simp, by decide, by decide, by simp [plentyMemory]⟩
    exact ⟨ascii ['s', 'e', 't'], ascii ['0'], ascii ['0'], ascii ['1'], [], by decide +kernel,
      by decide, by decide⟩
  have hget : Exchange.Valid plentyMemory
      (.request (.get (ascii ['a'])) (ascii ['g', 'e', 't', ' ', 'a']) [] []) := by
    refine ⟨⟨⟨by decide, by decide, by decide⟩, ?_, by decide, by decide, by decide⟩, by decide,
      by simp, rfl⟩
    exact ⟨0, 0, ascii ['g', 'e', 't'], by decide, by decide⟩
  have hsync : SyncLine (ascii ['s', 'y', 'n', 'c', ' ', 'a', 'l', 'l']) :=
    ⟨ascii ['a', 'l', 'l'], ⟨ascii ['a', 'l', 'l'],
      ⟨0, ascii ['s', 'y', 'n', 'c'], by decide, by decide⟩, 0, 0, Nat.zero_le 1, by decide⟩,
      by decide⟩
  have hpower : PowerLine (ascii ['p', 'o', 'w', 'e', 'r', ' ', 'h', 'a', 'l', 't']) :=
    ⟨ascii ['h', 'a', 'l', 't'], ⟨ascii ['h', 'a', 'l', 't'],
      ⟨0, ascii ['p', 'o', 'w', 'e', 'r'], by decide, by decide⟩, 0, 0, Nat.zero_le 1, by decide⟩,
      by decide⟩
  -- the first start leads to the small store
  obtain ⟨_, c₁, m₁, tbl₁, hstep₁, hfiled₁, hc₁, -, -⟩ :=
    Life.step_spec hfiled blank_empty.inv hstart
  simp only [Life.step, hopen, Option.some.injEq, Prod.mk.injEq] at hstep₁
  obtain ⟨-, rfl⟩ := hstep₁
  refine ⟨hstart, fun bytes c hstep => ?_⟩
  simp only [Life.step, hopen, Option.some.injEq, Prod.mk.injEq] at hstep
  obtain ⟨-, rfl⟩ := hstep
  refine Life.Lawful.cons hfiled₁ hc₁ ⟨by simp, hset, ?_⟩ fun c₂ m₂ tbl₂ hfiled₂ hc₂ hbsp₂ => ?_
  · rintro r hr
    obtain rfl := Option.some.inj hr
    exact small_update_allows hl hcfg hindex hentry (ascii ['a']) ⟨true, true, true⟩
  refine Life.Lawful.cons hfiled₂ hc₂ ⟨by simpa using hbsp₂, ⟨by decide, by decide, by decide⟩,
    by decide, hsync⟩ fun c₃ m₃ tbl₃ hfiled₃ hc₃ hbsp₃ => ?_
  refine Life.Lawful.cons hfiled₃ hc₃ ⟨by simpa using hbsp₃, ⟨by decide, by decide, by decide⟩,
    by decide, hpower⟩ fun c₄ m₄ tbl₄ hfiled₄ hc₄ hbsp₄ => ?_
  refine Life.Lawful.cons hfiled₄ hc₄ ⟨hbsp₄.2 ⟨_, _, rfl⟩, le_rfl, by decide⟩
    fun c₅ m₅ tbl₅ hfiled₅ hc₅ hbsp₅ => ?_
  refine Life.Lawful.cons hfiled₅ hc₅ ⟨by simpa using hbsp₅, hget, ?_⟩ fun _ _ _ _ _ _ => trivial
  rintro r hr
  obtain rfl := Option.some.inj hr
  obtain ⟨w₅, _ | bsp⟩ := c₅
  · simp at hbsp₅
  · exact find_allows w₅ bsp _ _

/-- The value is there after the restart. -/
theorem server_refines_two_lives :
    ∃ c, Life.run plentyMemory ⟨World.empty, none⟩ twoLives =
      some ([[], mcSetDoneStr, [], [], [],
        ascii ['V', 'A', 'L', 'U', 'E', ' ', 'a', ' ', '0', ' ', '1', '\r', '\n'] ++
          [2, 13, 10]], c) := by
  obtain ⟨c, hrun⟩ := server_refines blank_empty twoLives_lawful
  exact ⟨c, hrun⟩

end Linglongta
