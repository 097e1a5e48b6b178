import Drydock.Proofs.Table
import Drydock.Symbols
import Mathlib.Algebra.GroupWithZero.Nat
import Mathlib.Data.Finset.Card

/-!
# What a symbol check finds

The check folds the symbol tables of all modules into one table of owners and reports the symbols
with more than one.  A symbol gains its owners module by module, so they stand in build order, and a
table lists its keys by rising name, so the conflicts do too.

The fold keeps for each symbol the owners so far, and a table that is added gives one more owner to
the symbols that it holds and that are not ignored.  Looking a symbol up after the fold therefore
gives the names of the tables that hold it, in their order, and nothing about other symbols enters.
This one equation is all that is used of the fold: a conflict is a symbol whose list of owners is
longer than one.

For tables of modules, owning is exporting.  Modules with distinct names are distinct, so a list of
several owners means that two different modules export the symbol, and the conflicts are the shared
symbols.

A check ends in one of four ways, and they exclude each other.  It is skipped because of the mode,
before anything is read; or because a module cannot be read, with the message of the first such
module; or else all tables are there and the conflicts decide.  `SymbolCheck.Decides` says this from
the side of the result, one field for each question, so that a caller can use the field it needs.

* `mem_conflictsOf_iff`, `pairwise_conflictsOf` — the conflicts of given tables.
* `SymbolCheck.Decides` — when a check is skipped, fails or passes, and what it reports.
* `checkSymbols_decides` — every check of modules with distinct names decides so.
-/

namespace Drydock

variable {tables : List (String × SymbolTable)} {ignored : List String} {symbol : String}

/-! ## Conflicts of tables -/

/-- The owners of a symbol, in the order of their tables. -/
def ownersIn (tables : List (String × SymbolTable)) (symbol : String) : List String :=
  (tables.filter fun t => symbol ∈ t.2.keys).map (·.1)

lemma get?_foldl_insert_owner (owner : String) {symbols : List String} (hnodup : symbols.Nodup)
    (owners : Table (List String)) (symbol : String) :
    (symbols.foldl
        (fun owners symbol => owners.insert symbol (((owners.get? symbol).getD []) ++ [owner]))
        owners).get? symbol =
      if symbol ∈ symbols then some (((owners.get? symbol).getD []) ++ [owner])
      else owners.get? symbol := by
  induction symbols generalizing owners with
  | nil => simp
  | cons first rest ih =>
      obtain ⟨hfirst, hrest⟩ := List.nodup_cons.1 hnodup
      rw [List.foldl_cons, ih hrest, Table.get?_insert]
      -- The first symbol does not occur again, so later ones do not touch its owners.
      by_cases hsymbol : symbol = first
      · simp [hsymbol, hfirst]
      · simp [hsymbol]

lemma get?_addOwner (owners : Table (List String)) (t : String × SymbolTable) (symbol : String) :
    ((addOwner ignored owners t).get? symbol).getD [] =
      ((owners.get? symbol).getD []) ++
        if symbol ∉ ignored ∧ symbol ∈ t.2.keys then [t.1] else [] := by
  have hnodup : (t.2.keys.filter fun symbol => symbol ∉ ignored).Nodup :=
    t.2.nodup_keys.filter _
  rw [addOwner, get?_foldl_insert_owner t.1 hnodup]
  by_cases hadded : symbol ∉ ignored ∧ symbol ∈ t.2.keys
  · simp [hadded]
  · have hnot : symbol ∉ t.2.keys.filter fun symbol => symbol ∉ ignored := by
      simpa [and_comm] using hadded
    rw [if_neg hnot, if_neg hadded, List.append_nil]

/-- After all tables a symbol has the owners that the tables give it. -/
lemma get?_foldl_addOwner (tables : List (String × SymbolTable)) (owners : Table (List String))
    (symbol : String) :
    ((tables.foldl (addOwner ignored) owners).get? symbol).getD [] =
      ((owners.get? symbol).getD []) ++
        if symbol ∈ ignored then [] else ownersIn tables symbol := by
  induction tables generalizing owners with
  | nil => simp [ownersIn]
  | cons t rest ih =>
      rw [List.foldl_cons, ih, get?_addOwner]
      by_cases hignored : symbol ∈ ignored
      · simp [hignored]
      · by_cases hkey : symbol ∈ t.2.keys
        · simp [hignored, hkey, ownersIn]
        · simp [hignored, hkey, ownersIn]

/-- A conflict is a symbol with its owners, where there are several and it is not ignored. -/
lemma mem_conflictsOf_iff {c : SymbolConflict} : c ∈ conflictsOf tables ignored ↔
    c.symbol ∉ ignored ∧ c.modules = ownersIn tables c.symbol ∧ 1 < c.modules.length := by
  have howners : ((tables.foldl (addOwner ignored) .empty).get? c.symbol).getD [] =
      if c.symbol ∈ ignored then [] else ownersIn tables c.symbol := get?_foldl_addOwner tables _ _
  have hentry : c ∈ conflictsOf tables ignored ↔
      (tables.foldl (addOwner ignored) .empty).get? c.symbol = some c.modules ∧
        1 < c.modules.length := by
    rw [Table.get?_eq_some_iff]
    simp only [conflictsOf, List.mem_map, List.mem_filter, decide_eq_true_eq]
    constructor
    · rintro ⟨⟨symbol, modules⟩, h, rfl⟩
      exact h
    · intro h
      exact ⟨(c.symbol, c.modules), h, rfl⟩
  rw [hentry]
  constructor
  · rintro ⟨hget, hlength⟩
    rw [hget, Option.getD_some] at howners
    by_cases hignored : c.symbol ∈ ignored
    · rw [if_pos hignored] at howners
      simp [howners] at hlength
    · rw [if_neg hignored] at howners
      exact ⟨hignored, howners, hlength⟩
  · rintro ⟨hignored, hmodules, hlength⟩
    rw [if_neg hignored, ← hmodules] at howners
    refine ⟨?_, hlength⟩
    -- A symbol without an entry has no owners, but here it has several.
    cases hget : (tables.foldl (addOwner ignored) .empty).get? c.symbol with
    | none =>
        rw [hget, Option.getD_none] at howners
        simp [← howners] at hlength
    | some modules =>
        rw [hget, Option.getD_some] at howners
        rw [howners]

lemma pairwise_conflictsOf (tables : List (String × SymbolTable)) (ignored : List String) :
    (conflictsOf tables ignored).Pairwise fun c d => c.symbol < d.symbol := by
  rw [conflictsOf, List.pairwise_map]
  exact (Table.ordered _).filter _

/-! ## Tables of modules -/

variable {source : Path → Except String SymbolTable} {modules : List BuiltModule}
  {mode : LinkMode} {b : BuiltModule} {message : String}

/-- The symbols of a module can be read. -/
def Readable (source : Path → Except String SymbolTable) (b : BuiltModule) : Prop :=
  ∃ table, source b.output = .ok table

/-- The symbols of a module; none where they cannot be read. -/
def tableOf (source : Path → Except String SymbolTable) (b : BuiltModule) : SymbolTable :=
  match source b.output with
  | .ok table => table
  | .error _ => .empty

/-- A module exports a symbol when its table holds it. -/
def Exports (source : Path → Except String SymbolTable) (symbol : String) (b : BuiltModule) :
    Prop :=
  symbol ∈ (tableOf source b).keys

instance : DecidablePred (Exports source symbol) := fun b =>
  inferInstanceAs (Decidable (symbol ∈ (tableOf source b).keys))

/-- The first module, in build order, whose symbols cannot be read, fails with the message. -/
def FirstUnreadable (source : Path → Except String SymbolTable) (modules : List BuiltModule)
    (message : String) : Prop :=
  ∃ front b back, modules = front ++ b :: back ∧ (∀ a ∈ front, Readable source a) ∧
    source b.output = .error message

/-- A symbol that is not ignored and that two modules export. -/
def SharedSymbol (source : Path → Except String SymbolTable) (modules : List BuiltModule)
    (ignored : List String) (symbol : String) : Prop :=
  symbol ∉ ignored ∧ ∃ a ∈ modules, ∃ b ∈ modules, a ≠ b ∧ Exports source symbol a ∧
    Exports source symbol b

/-- The owners of a symbol, in build order. -/
def ownersOf (source : Path → Except String SymbolTable) (modules : List BuiltModule)
    (symbol : String) : List String :=
  (modules.filter fun b => Exports source symbol b).map (·.name)

/-- What a check of modules has to come to. -/
structure SymbolCheck.Decides (mode : LinkMode) (source : Path → Except String SymbolTable)
    (modules : List BuiltModule) (ignored : List String)
    (result : Except (List SymbolConflict) SymbolCheck) : Prop where
  /-- Nothing is checked in separate mode, nor when some module cannot be read. -/
  skipped_iff : (∃ reason, result = .ok (.skipped reason)) ↔
    mode = .separate ∨ ∃ b ∈ modules, ¬ Readable source b
  /-- The mode is the first reason, the first module that cannot be read the second. -/
  reason : ∀ reason, result = .ok (.skipped reason) →
    (mode = .separate ∧ reason = .mode .separate) ∨
      mode ≠ .separate ∧ ∃ message, reason = .unreadable message ∧
        FirstUnreadable source modules message
  /-- Otherwise the check fails exactly when some symbol is shared. -/
  failed_iff : (∃ conflicts, result = .error conflicts) ↔
    mode ≠ .separate ∧ (∀ b ∈ modules, Readable source b) ∧
      ∃ symbol, SharedSymbol source modules ignored symbol
  /-- The symbols of the conflicts rise, so each stands there once. -/
  rising : ∀ conflicts, result = .error conflicts →
    conflicts.Pairwise fun c d => c.symbol < d.symbol
  /-- The conflicts are the shared symbols with their owners. -/
  conflict_iff : ∀ conflicts, result = .error conflicts → ∀ symbol owners,
    ⟨symbol, owners⟩ ∈ conflicts ↔
      SharedSymbol source modules ignored symbol ∧ owners = ownersOf source modules symbol
  /-- Otherwise the check passes and counts the symbols of all modules. -/
  passed_iff : ∀ symbols, result = .ok (.clean symbols) ↔
    mode ≠ .separate ∧ (∀ b ∈ modules, Readable source b) ∧
      (∀ symbol, ¬ SharedSymbol source modules ignored symbol) ∧
      symbols = (modules.map fun b => (tableOf source b).size).sum
  /-- Then every symbol that is not ignored has one owner. -/
  one_owner : ∀ symbols, result = .ok (.clean symbols) → ∀ symbol, symbol ∉ ignored →
    (∃ b ∈ modules, Exports source symbol b) → ∃! b, b ∈ modules ∧ Exports source symbol b

lemma checksSymbols_iff : mode.checksSymbols = true ↔ mode ≠ .separate := by
  cases mode <;> decide

lemma readTables_cons_of_ok {table : SymbolTable} (h : source b.output = .ok table)
    (rest : List BuiltModule) : readTables (m := Id) source (b :: rest) =
      (readTables (m := Id) source rest : Except _ _).map ((b.name, table) :: ·) := by
  simp only [readTables, bind, h]
  rfl

lemma readTables_cons_of_error (h : source b.output = .error message) (rest : List BuiltModule) :
    readTables (m := Id) source (b :: rest) = (.error message : Except _ _) := by
  simp only [readTables, bind, h]
  rfl

lemma readTables_of_readable (h : ∀ b ∈ modules, Readable source b) :
    readTables (m := Id) source modules =
      (.ok (modules.map fun b => (b.name, tableOf source b)) : Except _ _) := by
  induction modules with
  | nil => rfl
  | cons b rest ih =>
      obtain ⟨⟨table, htable⟩, hrest⟩ := List.forall_mem_cons.1 h
      have htable' : tableOf source b = table := by rw [tableOf, htable]
      rw [readTables_cons_of_ok htable, ih hrest, List.map_cons, htable']
      rfl

lemma readTables_of_unreadable (h : FirstUnreadable source modules message) :
    readTables (m := Id) source modules = (.error message : Except _ _) := by
  obtain ⟨front, b, back, rfl, hfront, hb⟩ := h
  induction front with
  | nil => exact readTables_cons_of_error hb back
  | cons a front ih =>
      obtain ⟨⟨table, htable⟩, hfront⟩ := List.forall_mem_cons.1 hfront
      rw [List.cons_append, readTables_cons_of_ok htable, ih hfront]
      rfl

lemma exists_firstUnreadable (h : ¬ ∀ b ∈ modules, Readable source b) :
    ∃ message, FirstUnreadable source modules message := by
  induction modules with
  | nil => simp at h
  | cons b rest ih =>
      cases hb : source b.output with
      | error message => exact ⟨message, [], b, rest, rfl, by simp, hb⟩
      | ok table =>
          have hrest : ¬ ∀ b ∈ rest, Readable source b := fun hrest =>
            h (List.forall_mem_cons.2 ⟨⟨table, hb⟩, hrest⟩)
          obtain ⟨message, front, a, back, rfl, hfront, ha⟩ := ih hrest
          exact ⟨message, b :: front, a, back, rfl,
            List.forall_mem_cons.2 ⟨⟨table, hb⟩, hfront⟩, ha⟩

lemma FirstUnreadable.not_readable (h : FirstUnreadable source modules message) :
    ∃ b ∈ modules, ¬ Readable source b := by
  obtain ⟨front, b, back, rfl, -, hb⟩ := h
  refine ⟨b, by simp, ?_⟩
  rintro ⟨table, htable⟩
  rw [hb] at htable
  cases htable

/-! ## Checks -/

lemma ownersIn_map (modules : List BuiltModule) (symbol : String) :
    ownersIn (modules.map fun b => (b.name, tableOf source b)) symbol =
      ownersOf source modules symbol := by
  simp only [ownersIn, ownersOf, List.filter_map, List.map_map]
  rfl

/-- Of distinct modules, several own a symbol exactly when two of them export it. -/
lemma one_lt_length_ownersOf_iff (hnodup : modules.Nodup) :
    1 < (ownersOf source modules symbol).length ↔
      ∃ a ∈ modules, ∃ b ∈ modules, a ≠ b ∧ Exports source symbol a ∧ Exports source symbol b := by
  have hcard : (ownersOf source modules symbol).length =
      (modules.filter fun b => Exports source symbol b).toFinset.card := by
    rw [List.toFinset_card_of_nodup (hnodup.filter _), ownersOf, List.length_map]
  rw [hcard, Finset.one_lt_card]
  simp only [List.mem_toFinset, List.mem_filter, decide_eq_true_eq]
  constructor
  · rintro ⟨a, ⟨ha, hexports⟩, b, ⟨hb, hexports'⟩, hne⟩
    exact ⟨a, ha, b, hb, hne, hexports, hexports'⟩
  · rintro ⟨a, ha, b, hb, hne, hexports, hexports'⟩
    exact ⟨a, ⟨ha, hexports⟩, b, ⟨hb, hexports'⟩, hne⟩

lemma mem_conflictsOf_modules_iff (hnodup : modules.Nodup) {owners : List String} :
    ⟨symbol, owners⟩ ∈ conflictsOf (modules.map fun b => (b.name, tableOf source b)) ignored ↔
      SharedSymbol source modules ignored symbol ∧ owners = ownersOf source modules symbol := by
  rw [mem_conflictsOf_iff, SharedSymbol, ← one_lt_length_ownersOf_iff hnodup]
  dsimp only
  rw [ownersIn_map]
  constructor
  · rintro ⟨hignored, rfl, hlength⟩
    exact ⟨⟨hignored, hlength⟩, rfl⟩
  · rintro ⟨⟨hignored, hlength⟩, rfl⟩
    exact ⟨hignored, rfl, hlength⟩

lemma checkSymbols_of_unreadable (hmode : mode ≠ .separate)
    (h : FirstUnreadable source modules message) :
    (checkSymbols (m := Id) mode source modules ignored).run =
      .ok (.skipped (.unreadable message)) := by
  simp only [checkSymbols, checksSymbols_iff.2 hmode, Bool.not_true, Bool.false_eq_true, if_false,
    bind, readTables_of_unreadable h]
  rfl

lemma checkSymbols_of_readable (hmode : mode ≠ .separate) (h : ∀ b ∈ modules, Readable source b) :
    (checkSymbols (m := Id) mode source modules ignored).run =
      SymbolCheck.ofTables (modules.map fun b => (b.name, tableOf source b)) ignored := by
  simp only [checkSymbols, checksSymbols_iff.2 hmode, Bool.not_true, Bool.false_eq_true, if_false,
    bind, readTables_of_readable h]
  rfl

lemma SymbolCheck.decides_skipped {reason : SkipReason}
    (h : (mode = .separate ∧ reason = .mode .separate) ∨
      mode ≠ .separate ∧ ∃ message, reason = .unreadable message ∧
        FirstUnreadable source modules message) :
    Decides mode source modules ignored (.ok (.skipped reason)) := by
  have hskipped : mode = .separate ∨ ∃ b ∈ modules, ¬ Readable source b := by
    rcases h with ⟨hmode, -⟩ | ⟨-, message, -, hfirst⟩
    · exact .inl hmode
    · exact .inr hfirst.not_readable
  have hnot : ¬ (mode ≠ .separate ∧ ∀ b ∈ modules, Readable source b) := by
    rintro ⟨hmode, hall⟩
    rcases hskipped with hmode' | ⟨b, hb, hnot⟩
    · exact hmode hmode'
    · exact hnot (hall b hb)
  constructor
  · exact ⟨fun _ => hskipped, fun _ => ⟨reason, rfl⟩⟩
  · rintro _ ⟨⟩
    exact h
  · exact ⟨by simp, fun hfailed => absurd ⟨hfailed.1, hfailed.2.1⟩ hnot⟩
  · simp
  · simp
  · exact fun symbols => ⟨by simp, fun hpassed => absurd ⟨hpassed.1, hpassed.2.1⟩ hnot⟩
  · simp

/-- A check of tables that could all be read. -/
lemma SymbolCheck.decides_ofTables (hnodup : modules.Nodup) (hmode : mode ≠ .separate)
    (hall : ∀ b ∈ modules, Readable source b) :
    Decides mode source modules ignored
      (ofTables (modules.map fun b => (b.name, tableOf source b)) ignored) := by
  have hconflict : ∀ symbol owners,
      ⟨symbol, owners⟩ ∈ conflictsOf (modules.map fun b => (b.name, tableOf source b)) ignored ↔
        SharedSymbol source modules ignored symbol ∧ owners = ownersOf source modules symbol :=
    fun symbol owners => mem_conflictsOf_modules_iff hnodup
  have hrising := pairwise_conflictsOf (modules.map fun b => (b.name, tableOf source b)) ignored
  have hskipped : ¬ (mode = .separate ∨ ∃ b ∈ modules, ¬ Readable source b) := by
    rintro (h | ⟨b, hb, hnot⟩)
    · exact hmode h
    · exact hnot (hall b hb)
  rw [ofTables]
  split
  · rename_i hnone
    -- Without conflicts no symbol is shared, and all of them are counted.
    rw [hnone] at hconflict
    have hshared : ∀ symbol, ¬ SharedSymbol source modules ignored symbol := fun symbol h =>
      absurd ((hconflict symbol _).2 ⟨h, rfl⟩) (by simp)
    have hsum : ((modules.map fun b => (b.name, tableOf source b)).map fun t => t.2.size).foldl
        (· + ·) 0 = (modules.map fun b => (tableOf source b).size).sum := by
      rw [List.map_map, List.sum_eq_foldl]
      rfl
    rw [hsum]
    constructor
    · exact ⟨by simp, fun h => absurd h hskipped⟩
    · simp
    · exact ⟨by simp, fun ⟨_, _, symbol, h⟩ => absurd h (hshared symbol)⟩
    · simp
    · simp
    · intro symbols
      constructor
      · rintro ⟨⟩
        exact ⟨hmode, hall, hshared, rfl⟩
      · rintro ⟨-, -, -, rfl⟩
        rfl
    · rintro _ - symbol hignored ⟨b, hb, hexports⟩
      refine ⟨b, ⟨hb, hexports⟩, ?_⟩
      rintro a ⟨ha, hexports'⟩
      by_contra hne
      exact hshared symbol ⟨hignored, a, ha, b, hb, hne, hexports', hexports⟩
  · rename_i conflicts hsome
    -- Any conflict shows a shared symbol, which refutes that the check passes.
    obtain ⟨⟨symbol, owners⟩, hmem⟩ := List.exists_mem_of_ne_nil _ hsome
    have hshared := ((hconflict symbol owners).1 hmem).1
    constructor
    · exact ⟨by simp, fun h => absurd h hskipped⟩
    · simp
    · exact ⟨fun _ => ⟨hmode, hall, symbol, hshared⟩, fun _ => ⟨_, rfl⟩⟩
    · rintro _ ⟨⟩
      exact hrising
    · rintro _ ⟨⟩
      exact hconflict
    · exact fun symbols => ⟨by simp, fun ⟨_, _, hnot, _⟩ => absurd hshared (hnot symbol)⟩
    · simp

/-- A check of modules with distinct names is skipped in separate mode and where some module cannot
be read; otherwise it fails with every shared symbol and its owners, or it passes and every symbol
has one owner. -/
theorem checkSymbols_decides (mode : LinkMode) (source : Path → Except String SymbolTable)
    (modules : List BuiltModule) (ignored : List String) (hnames : (modules.map (·.name)).Nodup) :
    SymbolCheck.Decides mode source modules ignored
      (checkSymbols (m := Id) mode source modules ignored).run := by
  have hnodup : modules.Nodup := hnames.of_map _
  by_cases hmode : mode = .separate
  · subst hmode
    exact SymbolCheck.decides_skipped (.inl ⟨rfl, rfl⟩)
  · by_cases hall : ∀ b ∈ modules, Readable source b
    · rw [checkSymbols_of_readable hmode hall]
      exact SymbolCheck.decides_ofTables hnodup hmode hall
    · obtain ⟨message, hfirst⟩ := exists_firstUnreadable hall
      rw [checkSymbols_of_unreadable hmode hfirst]
      exact SymbolCheck.decides_skipped (.inr ⟨hmode, message, rfl, hfirst⟩)

/-- Three modules, two of which export `bgzf_open` and `hts_open` both. -/
def builtTwice : List BuiltModule :=
  [⟨"libcore", ⟨"pkg/libcore.so"⟩⟩, ⟨"libutils", ⟨"pkg/libutils.so"⟩⟩,
    ⟨"libview", ⟨"pkg/libview.so"⟩⟩]

/-- The symbols of these modules. -/
def symbolsOfTwice (p : Path) : Except String SymbolTable :=
  if p.text = "pkg/libutils.so" then .ok (.ofNames ["sam_view"])
  else .ok (.ofNames ["hts_open", "main", "bgzf_open"])

theorem checkSymbols_decides_builtTwice :
    (builtTwice.map (·.name)).Nodup ∧
      (checkSymbols (m := Id) .shared symbolsOfTwice builtTwice ["main"]).run =
        .error [⟨"bgzf_open", ["libcore", "libview"]⟩, ⟨"hts_open", ["libcore", "libview"]⟩] ∧
      SymbolCheck.Decides .shared symbolsOfTwice builtTwice ["main"]
        (.error [⟨"bgzf_open", ["libcore", "libview"]⟩, ⟨"hts_open", ["libcore", "libview"]⟩]) := by
  have hnames : (builtTwice.map (·.name)).Nodup := by decide
  have hresult : (checkSymbols (m := Id) .shared symbolsOfTwice builtTwice ["main"]).run =
      .error [⟨"bgzf_open", ["libcore", "libview"]⟩, ⟨"hts_open", ["libcore", "libview"]⟩] := by
    decide +kernel
  have hdecides := checkSymbols_decides .shared symbolsOfTwice builtTwice ["main"] hnames
  rw [hresult] at hdecides
  exact ⟨hnames, hresult, hdecides⟩

end Drydock
