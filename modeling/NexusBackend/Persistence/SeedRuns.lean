import NexusBackend.Persistence.SecuritiesSeed

/-!
What the tables hold after seeds were applied to them: one run, a history of runs of which some
fail, and a run that repeats another.
-/
namespace NexusBackend

open Python KeyedTable

/-- The tables that two lists of rows leave of `db`. -/
structure SecuritiesDb.Wrote (db : SecuritiesDb) (rows : List SecurityRow)
    (edges : List RelationRow) (db' : SecuritiesDb) : Prop where
  master : db'.master.toKeyedTable = db.master.toKeyedTable.upsertAll rows
  relation : db'.relation.toKeyedTable = db.relation.toKeyedTable.upsertAll edges

theorem SecurityTable.eq_of_toKeyedTable {t t' : SecurityTable}
    (h : t.toKeyedTable = t'.toKeyedTable) : t = t' := by
  cases t
  cases t'
  cases h
  rfl

theorem RelationTable.eq_of_toKeyedTable {t t' : RelationTable}
    (h : t.toKeyedTable = t'.toKeyedTable) : t = t' := by
  cases t
  cases t'
  cases h
  rfl

namespace SecuritiesDb

variable {db db' : SecuritiesDb} {rows : List SecurityRow} {edges : List RelationRow}

theorem write_wrote (db : SecuritiesDb) (rows : List AdmittedSecurity)
    (edges : List AdmittedRelation) :
    db.Wrote (rows.map Subtype.val) (edges.map Subtype.val) (db.write rows edges) :=
  ⟨db.master.upsertAll_toKeyedTable rows, db.relation.upsertAll_toKeyedTable edges⟩

theorem Wrote.eq (h : db.Wrote rows edges db') {db'' : SecuritiesDb}
    (h' : db.Wrote rows edges db'') : db' = db'' := by
  cases db'
  cases db''
  have hmaster := SecurityTable.eq_of_toKeyedTable (h.master.trans h'.master.symm)
  have hrelation := RelationTable.eq_of_toKeyedTable (h.relation.trans h'.relation.symm)
  cases hmaster
  cases hrelation
  rfl

theorem Wrote.held_master (h : db.Wrote rows edges db') (ticker : Text) :
    db'.master.held ticker =
      (lastUnder SecurityRow.ticker ticker rows).or (db.master.held ticker) := by
  rw [h.master, held_upsertAll]

theorem Wrote.held_relation (h : db.Wrote rows edges db') (k : Text × Text × Text) :
    db'.relation.held k = (lastUnder RelationRow.key k edges).or (db.relation.held k) := by
  rw [h.relation, held_upsertAll]

end SecuritiesDb

namespace SeedRun

variable (driver : Driver)

/-- What a run that writes leaves and returns. -/
theorem Writes.upsertSeed {run : SeedRun} {items ends : List Json} {secs : List SecurityRow}
    {edges : List RelationRow} (h : run.Writes driver items ends secs edges) (db : SecuritiesDb) :
    db.Wrote secs edges (run.upsertSeed driver db).1 ∧
      (run.upsertSeed driver db).2 = .ok (items.length, ends.length) := by
  obtain ⟨w, hw, rfl, rfl⟩ := (run.written_ok_iff driver secs edges).mpr ⟨items, ends, h⟩
  have hitems := h.security_rows.length_eq
  have hends := h.relation_rows.length_eq
  rw [List.length_map] at hitems hends
  rw [upsertSeed_eq, hw, hitems, hends]
  exact ⟨db.write_wrote w.1 w.2, rfl⟩

/-- A run writes every record and counts them, or it raises and leaves the tables as they were.
It writes exactly where each record has a row that its table admits and the connection holds. -/
theorem upsertSeed_cases (run : SeedRun) (db : SecuritiesDb) :
    (∃ items ends rows edges, run.Writes driver items ends rows edges ∧
        db.Wrote rows edges (run.upsertSeed driver db).1 ∧
        (run.upsertSeed driver db).2 = .ok (items.length, ends.length)) ∨
      (¬ ∃ items ends rows edges, run.Writes driver items ends rows edges) ∧
        ∃ e, run.upsertSeed driver db = (db, .error e) := by
  cases hwritten : run.written driver with
  | ok w =>
      left
      obtain ⟨items, ends, hwrites⟩ :=
        (run.written_ok_iff driver _ _).mp ⟨w, hwritten, rfl, rfl⟩
      exact ⟨items, ends, _, _, hwrites, hwrites.upsertSeed driver db⟩
  | error e =>
      right
      refine ⟨?_, e, by rw [upsertSeed_eq, hwritten]⟩
      intro h
      obtain ⟨items, ends, rows, edges, hwrites⟩ := h
      obtain ⟨w, hw, -⟩ := (run.written_ok_iff driver rows edges).mpr ⟨items, ends, hwrites⟩
      rw [hwritten] at hw
      cases hw

/-- A run that returns counts every record it was given and leaves, under each key, the last of its
rows or the row that was there; a run that raises leaves both tables as they were. It returns
exactly where each record gives a row that its table admits and the connection holds. -/
theorem upsertSeed_allOrNothing (run : SeedRun) (db : SecuritiesDb) :
    (∃ items ends rows edges, run.Writes driver items ends rows edges ∧
        (run.upsertSeed driver db).2 = .ok (items.length, ends.length) ∧
        (∀ ticker, (run.upsertSeed driver db).1.master.held ticker =
          (lastUnder SecurityRow.ticker ticker rows).or (db.master.held ticker)) ∧
        ∀ k, (run.upsertSeed driver db).1.relation.held k =
          (lastUnder RelationRow.key k edges).or (db.relation.held k)) ∨
      (¬ ∃ items ends rows edges, run.Writes driver items ends rows edges) ∧
        ∃ e, run.upsertSeed driver db = (db, .error e) := by
  obtain ⟨items, ends, rows, edges, hwrites, hwrote, hcounts⟩ | hraises :=
    run.upsertSeed_cases driver db
  · exact .inl ⟨items, ends, rows, edges, hwrites, hcounts, hwrote.held_master,
      hwrote.held_relation⟩
  · exact .inr hraises

/-! ### Histories -/

/-- The tables after one run after another. -/
def afterRuns (db : SecuritiesDb) (runs : List SeedRun) : SecuritiesDb :=
  runs.foldl (fun db run => (run.upsertSeed driver db).1) db

/-- The rows of a run that returns. -/
def rows (run : SeedRun) : List SecurityRow × List RelationRow :=
  match run.written driver with
  | .ok w => (w.1.map Subtype.val, w.2.map Subtype.val)
  | .error _ => ([], [])

theorem upsertSeed_wrote (run : SeedRun) (db : SecuritiesDb) :
    db.Wrote (run.rows driver).1 (run.rows driver).2 (run.upsertSeed driver db).1 := by
  rw [upsertSeed_eq, rows]
  cases run.written driver with
  | ok w => exact db.write_wrote w.1 w.2
  | error e => exact ⟨rfl, rfl⟩

theorem afterRuns_wrote (db : SecuritiesDb) (runs : List SeedRun) :
    db.Wrote (runs.flatMap fun run => (run.rows driver).1)
      (runs.flatMap fun run => (run.rows driver).2) (afterRuns driver db runs) := by
  induction runs generalizing db with
  | nil => exact ⟨rfl, rfl⟩
  | cons run runs ih =>
      have hone := run.upsertSeed_wrote driver db
      have hrest := ih (run.upsertSeed driver db).1
      constructor
      · rw [List.flatMap_cons, upsertAll_append, ← hone.master]
        exact hrest.master
      · rw [List.flatMap_cons, upsertAll_append, ← hone.relation]
        exact hrest.relation

/-- After any history of runs, each ticker and each edge has the row of the last record that a run
which returned has written of it, or the row it had before. -/
theorem afterRuns_held (db : SecuritiesDb) (runs : List SeedRun) :
    (∀ ticker, (afterRuns driver db runs).master.held ticker =
        (lastUnder SecurityRow.ticker ticker (runs.flatMap fun run => (run.rows driver).1)).or
          (db.master.held ticker)) ∧
      ∀ k, (afterRuns driver db runs).relation.held k =
        (lastUnder RelationRow.key k (runs.flatMap fun run => (run.rows driver).2)).or
          (db.relation.held k) :=
  ⟨(afterRuns_wrote driver db runs).held_master, (afterRuns_wrote driver db runs).held_relation⟩

/-! ### The same seed again -/

/-- The time does not decide what a record gives. -/
theorem securityRow_now (now now' : UtcTime) (s : Json) :
    securityRow driver now' s =
      (fun row => { row with updatedAt := now' }) <$> securityRow driver now s := by
  simp only [securityRow, map_bind, map_pure]

theorem relationRow_now (now now' : UtcTime) (r : Json) :
    relationRow driver now' r =
      (fun row => { row with updatedAt := now' }) <$> relationRow driver now r := by
  simp only [relationRow, map_bind, map_pure]

/-- The same seed at another time, over a connection of its own. -/
def again (run : SeedRun) (now : UtcTime) (lost : Nat → Option Exn) : SeedRun :=
  { run with now := now, lost := lost }

theorem forall₂_functional {α β : Type} {f g : α → Except Exn β} {P : β → Prop} {h : β → β}
    (hg : ∀ a, g a = h <$> f a) {xs : List α} {ys zs : List β}
    (hys : List.Forall₂ (fun a b => f a = .ok b ∧ P b) xs ys)
    (hzs : List.Forall₂ (fun a b => g a = .ok b ∧ P b) xs zs) : zs = ys.map h := by
  induction hys generalizing zs with
  | nil =>
      cases hzs
      rfl
  | cons hy _ ih =>
      cases hzs with
      | cons hz hzs =>
          have hhead := hz.1
          rw [hg, hy.1] at hhead
          rw [List.map_cons, ih hzs, Except.ok.inj hhead]

/-- What the same seed writes again differs in its time only. -/
theorem writes_again {run : SeedRun} {now : UtcTime} {lost : Nat → Option Exn}
    {items ends items' ends' : List Json} {secs secs' : List SecurityRow}
    {edges edges' : List RelationRow} (h : run.Writes driver items ends secs edges)
    (h' : (run.again now lost).Writes driver items' ends' secs' edges') :
    secs' = secs.map (fun row => { row with updatedAt := now }) ∧
      edges' = edges.map fun row => { row with updatedAt := now } := by
  have hitems : items = items' := Except.ok.inj (h.securities.symm.trans h'.securities)
  have hends : ends = ends' := Except.ok.inj (h.relations.symm.trans h'.relations)
  subst hitems hends
  exact ⟨forall₂_functional (securityRow_now driver run.now now) h.security_rows h'.security_rows,
    forall₂_functional (relationRow_now driver run.now now) h.relation_rows h'.relation_rows⟩

/-- A seed that is written again leaves the tables as if it had only been written the second
time. -/
theorem upsertSeed_again (run : SeedRun) (now : UtcTime) (lost : Nat → Option Exn)
    (db : SecuritiesDb)
    (hreturns : ((run.again now lost).upsertSeed driver db).2.isOk = true) :
    (run.again now lost).upsertSeed driver (run.upsertSeed driver db).1 =
      (run.again now lost).upsertSeed driver db := by
  have hwrites : ∃ w, (run.again now lost).written driver = .ok w := by
    rw [upsertSeed_eq] at hreturns
    cases hw : (run.again now lost).written driver with
    | ok w => exact ⟨w, rfl⟩
    | error e =>
        rw [hw] at hreturns
        cases hreturns
  obtain ⟨w, hw⟩ := hwrites
  obtain ⟨items', ends', h'⟩ := (written_ok_iff driver _ _ _).mp ⟨w, hw, rfl, rfl⟩
  rw [upsertSeed_eq, upsertSeed_eq driver (run.again now lost) db, hw]
  dsimp only
  rw [Prod.mk.injEq]
  refine ⟨?_, rfl⟩
  obtain ⟨items, ends, secs, edges, h, hwrote, -⟩ | ⟨-, e, herror⟩ := run.upsertSeed_cases driver db
  · obtain ⟨hsecs, hedges⟩ := writes_again driver h h'
    have hsecond := SecuritiesDb.write_wrote (run.upsertSeed driver db).1 w.1 w.2
    have honly := SecuritiesDb.write_wrote db w.1 w.2
    have htickers : (w.1.map Subtype.val).map SecurityRow.ticker = secs.map SecurityRow.ticker := by
      rw [hsecs, List.map_map]
      rfl
    have hkeys : (w.2.map Subtype.val).map RelationRow.key = edges.map RelationRow.key := by
      rw [hedges, List.map_map]
      rfl
    refine SecuritiesDb.Wrote.eq ⟨?_, ?_⟩ honly
    · rw [hsecond.master, hwrote.master, upsertAll_again _ htickers]
    · rw [hsecond.relation, hwrote.relation, upsertAll_again _ hkeys]
  · rw [herror]

/-! ### A seed of one security -/

def plainText : Json → Except Exn (Option Text)
  | .null => .ok none
  | .str s => if Storable s then .ok (some s) else raise interfaceError
  | _ => raise interfaceError

theorem plainText_storable (v : Json) (s : Text) (h : plainText v = .ok (some s)) :
    Storable s := by
  cases v with
  | str s' =>
      rw [plainText] at h
      split at h
      · rename_i hs
        rwa [← Option.some.inj (Except.ok.inj h)]
      · cases h
  | null => cases h
  | bool _ | int _ | float _ | arr _ | obj _ => cases h

def plainTexts (vs : List Json) : Except Exn (List Text) :=
  vs.mapM fun v => plainText v >>= notNull

theorem plainTexts_storable (vs : List Json) (ss : List Text) (h : plainTexts vs = .ok ss) :
    ∀ s ∈ ss, Storable s := by
  intro s hs
  obtain ⟨v, -, hv⟩ := mem_of_mapM h hs
  obtain ⟨found, hfound, hnull⟩ := bind_eq_ok_iff.mp hv
  cases found with
  | none => cases hnull
  | some t => exact Except.ok.inj hnull ▸ plainText_storable v t hfound

theorem plainTexts_strs (ss : List Text) (h : ∀ s ∈ ss, Storable s) :
    plainTexts (ss.map .str) = .ok ss := by
  induction ss with
  | nil => rfl
  | cons s ss ih =>
      have hs : plainText (.str s) = .ok (some s) := if_pos (h s List.mem_cons_self)
      rw [List.map_cons, plainTexts, List.mapM_cons, hs]
      change (plainTexts (ss.map .str) >>= fun rest => Except.ok (s :: rest)) = _
      rw [ih fun s' hs' => h s' (List.mem_cons_of_mem _ hs')]
      rfl

def plainBigint : Json → Except Exn (Option Int)
  | .null => .ok none
  | .int n => if -2 ^ 63 ≤ n ∧ n < 2 ^ 63 then .ok (some n) else raise interfaceError
  | _ => raise interfaceError

def plainDouble : Json → Except Exn (Option Python.Float)
  | .null => .ok none
  | .float x => .ok (some x)
  | .int n => some <$> floatOfInt n
  | _ => raise interfaceError

theorem plainDouble_int (n : Int) (x : Python.Float) (h : floatOfInt n = .ok x) :
    plainDouble (.int n) = .ok (some x) := by
  rw [plainDouble, h]
  rfl

/-- A driver that refuses what is not of the type of the column. -/
def plainDriver : Driver where
  text := plainText
  textArray := plainTexts
  bigint := plainBigint
  double := plainDouble
  text_storable := plainText_storable
  text_null := rfl
  text_str _ h := if_pos h
  textArray_storable := plainTexts_storable
  textArray_strs := plainTexts_strs
  bigint_null := rfl
  bigint_int _ hlow hhigh := if_pos ⟨hlow, hhigh⟩
  double_null := rfl
  double_float _ := rfl
  double_int := plainDouble_int

def samsungRecord : Json := .obj [
  (text "ticker", .str (text "005930")), (text "name_en", .str (text "Samsung Electronics")),
  (text "aliases", .arr [.str (text "SEC")]), (text "market", .str (text "KRX")),
  (text "sector", .str (text "SEMI")), (text "sector_label", .str (text "Semi")),
  (text "currency", .str (text "KRW")), (text "is_subscribed", .bool true)]

def sectorRecord : Json := .obj [
  (text "from_ticker", .str (text "005930")), (text "to_ticker", .str (text "SECTOR:SEMI")),
  (text "kind", .str (text "sector")), (text "weight", .float (.finite (1 / 2)))]

def samsungSeed : SeedRun where
  securities := .arr [samsungRecord]
  relations := .arr [sectorRecord]
  now := ⟨sampleDate, Time.midnight⟩
  lost _ := none

def emptyMaster : SecurityTable where
  toKeyedTable := KeyedTable.empty
  storable _ h := absurd h List.not_mem_nil
  market_check _ h := absurd h List.not_mem_nil

def emptyRelation : RelationTable where
  toKeyedTable := KeyedTable.empty
  admitted _ h := absurd h List.not_mem_nil

theorem samsungSeed_again :
    (samsungSeed.again ⟨sampleDate, Time.midnight⟩ fun _ => none).upsertSeed plainDriver
        (samsungSeed.upsertSeed plainDriver ⟨emptyMaster, emptyRelation⟩).1 =
      (samsungSeed.again ⟨sampleDate, Time.midnight⟩ fun _ => none).upsertSeed plainDriver
        ⟨emptyMaster, emptyRelation⟩ :=
  upsertSeed_again plainDriver samsungSeed _ _ _ (by decide +kernel)

end SeedRun
end NexusBackend
