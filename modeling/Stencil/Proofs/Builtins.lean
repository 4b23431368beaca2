/-
# What the standard functions, filters and loaders fail for

No filter that every template has raises an error: it makes a value, or the program
stops with a fault. The functions that every template has raise errors, but only
ones of calls, on no line and attributed to no template. So these are all the
failures that functions and filters add to those of rendering, for an engine with
the standard ones. Loaders of tables and of directories say of the name that they
were asked for that there is no such template or that it cannot be read.

Key definitions: `Failure.IsFault`, `Failure.OfCall`, `Failure.OfLoader`,
`Filter.Quiet`.
Key theorems: `Filter.quiet_of_builtins`, `Function.calls_of_builtins`,
`Engine.ofCall_of_raises`, `Directories.load_fails`.
-/
import Stencil.Proofs.Failures
import Stencil.Engine
import Stencil.Files.Directories

namespace Stencil

/-- The program stops. -/
def Failure.IsFault : Failure → Prop
  | .error _ => False
  | .fault _ => True

/-- The failures of functions: errors of calls that have no place yet, and faults. -/
inductive Failure.OfCall : Failure → Prop
  | cause {c : Cause} (calling : c.category = .calling) : OfCall (.of c)
  | fault (f : Fault) : OfCall (.fault f)

/-- The failures of loaders that are asked for a name. -/
inductive Failure.OfLoader (name : String) : Failure → Prop
  | notFound : OfLoader name (.of (.templateNotFound name))
  | unreadable (reason : Option String) : OfLoader name (.of (.loadFailed name reason))
  | fault (f : Fault) : OfLoader name (.fault f)

theorem Failure.IsFault.ofLoader {f : Failure} (h : f.IsFault) (name : String) :
    f.OfLoader name := by
  cases f with
  | error _ => exact h.elim
  | fault f => exact .fault f

theorem Failure.IsFault.ofCall {f : Failure} (h : f.IsFault) : f.OfCall := by
  cases f with
  | error _ => exact h.elim
  | fault f => exact .fault f

namespace Fails

variable {α : Type} {P : Failure → Prop}

/-- Halves of characters make no difference to what work fails for. -/
theorem throughStandIns {v : Value} {near : List Char} {work : Value → Except Failure Value}
    (h : ∀ w, Fails P (work w)) : Fails P (v.throughStandIns near work) :=
  .ite (h v) ((h _).map _)

theorem unlessLong (v : Value) (made : α) : Fails Failure.IsFault (v.unlessLong made) :=
  .ite (.error trivial) .ok

theorem write (t : DateTime) (fmt : List Char) : Fails Failure.IsFault (t.write fmt) := by
  unfold DateTime.write
  split
  · exact .ok
  · exact .error trivial

end Fails

/-! ### Filters -/

namespace Filter

/-- A filter that raises no errors. -/
def Quiet (g : Filter) : Prop :=
  ∀ v argument, Fails Failure.IsFault (g v argument)

namespace Quiet

variable {g : Filter}

theorem onPoints (h : g.Quiet) : (onPoints g).Quiet := by
  intro v argument
  unfold Filter.onPoints
  split
  · exact .throughStandIns fun w => h w argument
  · exact h v argument

theorem onAllPoints (h : g.Quiet) : (onAllPoints g).Quiet :=
  fun _ argument => .throughStandIns fun w => h w argument

theorem onText (f : List Char → List Char) : (onText f).Quiet := by
  intro v argument
  unfold Filter.onText
  split <;> exact .ok

theorem onCodePoints (f : List CodePoint → List CodePoint) : (onCodePoints f).Quiet := by
  intro v argument
  unfold Filter.onCodePoints
  split <;> exact .ok

end Quiet

theorem length_quiet : length.Quiet := fun _ _ => .ok

theorem slice_quiet : slice.Quiet := by
  intro v argument
  unfold slice
  split
  · exact .ok
  · dsimp only
    split <;> exact .ok

theorem join_quiet : join.Quiet := by
  intro v argument
  unfold join
  split
  · exact .unlessLong v _
  · exact .ok

theorem date_quiet (world : Surroundings) : (date world).Quiet := by
  intro v argument
  unfold date
  split
  · exact .write _ _
  · exact .ok

theorem default_quiet : default.Quiet :=
  fun _ _ => .ite .ok .ok

theorem trim_quiet : trim.Quiet := by
  intro v argument
  unfold trim
  split <;> exact .ok

theorem reverse_quiet : reverse.Quiet := by
  intro v argument
  unfold reverse
  split <;> exact .ok

theorem first_quiet : first.Quiet := by
  intro v argument
  unfold first
  split <;> exact .ok

theorem last_quiet : last.Quiet := by
  intro v argument
  unfold last
  split <;> exact .ok

theorem format_quiet : format.Quiet := by
  intro v argument
  unfold format
  split
  · exact .ok
  · refine .throughStandIns fun w => ?_
    split
    · exact .ok
    · exact .ok
    · exact .error trivial

theorem replace_quiet : replace.Quiet := by
  intro v argument
  unfold replace
  split
  · split
    · exact .ite .ok .ok
    · exact .ok
  · exact .ok

theorem abs_quiet : abs.Quiet := by
  intro v argument
  unfold abs
  split <;> exact .ok

theorem roundTo_fails (decimals : Int) (v : Value) : Fails Failure.IsFault (roundTo decimals v) := by
  unfold roundTo
  split
  · exact .ok
  · refine .ite (.error trivial) ?_
    split
    · exact .ok
    · exact .error trivial
    · split
      · exact .ok
      · exact .ite .ok .ok

theorem round_quiet : round.Quiet := by
  intro v argument
  unfold round
  split
  · exact roundTo_fails _ v
  · exact .ok

theorem writeGrouped_fails (decimals : Int) (given rounded : Value) :
    Fails Failure.IsFault (writeGrouped decimals given rounded) :=
  .ite (.error trivial) (.ite .ok (.ite (.error trivial) (.ite (.error trivial) .ok)))

theorem numberFormat_quiet : numberFormat.Quiet := by
  intro v argument
  unfold numberFormat
  split
  · refine .ite .ok ?_
    split
    · exact writeGrouped_fails _ v _
    · next failed => exact .error (roundTo_fails _ v _ failed)
  · exact .ok

theorem urlEncode_quiet : urlEncode.Quiet := by
  intro v argument
  unfold urlEncode
  split
  · exact .ok
  · exact .error trivial
  · exact (Fails.unlessLong _ _).bind fun _ => .ite .ok (.error trivial)
  · exact .ok

theorem jsonEncode_quiet : jsonEncode.Quiet := fun v _ => .unlessLong v _

theorem split_quiet : split.Quiet := by
  intro v argument
  unfold split
  split <;> exact .ok

theorem keys_quiet : keys.Quiet := by
  intro v argument
  unfold keys
  split <;> exact .ok

theorem values_quiet : values.Quiet := by
  intro v argument
  unfold values
  split <;> exact .ok

/-- **No standard filter raises an error.** -/
theorem quiet_of_builtins (world : Surroundings) : ∀ g ∈ builtins world, Filter.Quiet g.2 := by
  simp only [builtins, List.forall_mem_cons, List.not_mem_nil, false_implies, implies_true, and_true]
  exact ⟨.onPoints (.onText _), .onPoints (.onText _), .onPoints length_quiet,
    slice_quiet, join_quiet, date_quiet world, default_quiet,
    .onCodePoints _, .onPoints trim_quiet, .onPoints reverse_quiet, .onPoints first_quiet,
    .onPoints last_quiet, format_quiet, .onPoints replace_quiet, abs_quiet, round_quiet,
    numberFormat_quiet, urlEncode_quiet, .onAllPoints jsonEncode_quiet, .onPoints (.onText _),
    .onPoints (.onText _), .onCodePoints _, .onPoints (.onText _), split_quiet, keys_quiet,
    values_quiet⟩

end Filter

/-! ### Functions -/

namespace Function

theorem fail_calls {α : Type} {c : Cause} (calling : c.category = .calling) :
    Fails Failure.OfCall (fail c : Except Failure α) :=
  .error (.cause calling)

theorem integer_calls (v : Value) (name : String) : Fails Failure.OfCall (integer v name) := by
  unfold integer
  split
  · exact .ok
  · split
    · exact .ok
    · exact fail_calls rfl
  · exact fail_calls rfl

theorem range_calls (arguments : List Value) : Fails Failure.OfCall (range arguments) := by
  unfold range
  split
  · refine (integer_calls _ _).bind fun low => (integer_calls _ _).bind fun high => ?_
    exact .ite (.error (.fault _)) (.ite (.error (.fault _)) .ok)
  · exact .ok

theorem extreme_calls (beats : Value → Value → Bool) (arguments : List Value) :
    Fails Failure.OfCall (extreme beats arguments) := by
  unfold extreme
  split
  · refine .ite .ok ?_
    split
    · exact fail_calls rfl
    · exact fail_calls rfl
    · exact .ok
  · exact .ok

theorem random_calls (world : Surroundings) (arguments : List Value) :
    Fails Failure.OfCall (random world arguments) := by
  unfold random
  split
  · refine (integer_calls _ _).bind fun low => (integer_calls _ _).bind fun high => ?_
    exact .ite .ok (.ite (.error (.fault _)) (fail_calls rfl))
  · exact .ok

theorem dateText_calls (world : Surroundings) (arguments : List Value) :
    Fails Failure.OfCall (dateText world arguments) := by
  have written (t : DateTime) (fmt : List Char) : Fails Failure.OfCall (t.write fmt) :=
    (Fails.write t fmt).mono fun _ => Failure.IsFault.ofCall
  unfold dateText
  split
  · split
    · exact written _ _
    · refine .ite (fail_calls rfl) ?_
      split
      · exact written _ _
      · exact ((Fails.unlessLong _ _).mono fun _ => Failure.IsFault.ofCall).bind
          fun _ => fail_calls rfl
  · exact fail_calls rfl

theorem date_calls (world : Surroundings) (arguments : List Value) :
    Fails Failure.OfCall (date world arguments) :=
  .throughStandIns fun _ => dateText_calls world _

theorem cycle_calls (arguments : List Value) : Fails Failure.OfCall (cycle arguments) := by
  unfold cycle
  split
  · split
    · exact fail_calls rfl
    · exact .ite (fail_calls rfl) .ok
    · exact fail_calls rfl
  · exact .ok

theorem constant_calls (arguments : List Value) : Fails Failure.OfCall (constant arguments) := by
  unfold constant
  split
  · split
    · exact .ok
    · exact .ok
    · exact .ok
    · exact fail_calls rfl
  · exact fail_calls rfl
  · exact fail_calls rfl

/-- **The standard functions raise errors of calls only.** -/
theorem calls_of_builtins (world : Surroundings) : ∀ g ∈ Registry.builtins world,
    ∀ arguments, Fails Failure.OfCall (g.2.run arguments) := by
  simp only [Registry.builtins, List.forall_mem_cons, List.not_mem_nil, false_implies, implies_true,
    and_true]
  exact ⟨range_calls, extreme_calls greater, extreme_calls less, random_calls world,
    date_calls world, cycle_calls, constant_calls⟩

end Function

/-- **What functions and filters fail for in an engine with the standard ones.** -/
theorem Engine.ofCall_of_raises {world : Surroundings} {loader : Loader} {limits : Limits}
    {failure : Failure} (h : (Engine.standard world loader limits).renderer.Raises failure) :
    failure.OfCall := by
  cases h with
  | function registered found fails =>
    cases registered
    exact Function.calls_of_builtins world _ (Table.mem_of_find? found) _ failure fails
  | filter found fails =>
    exact (Filter.quiet_of_builtins world _ (Table.mem_of_find? found) _ _ failure fails).ofCall

/-! ### Loaders -/

theorem Loader.ofTable_fails (sources : Table String) (name : String) :
    Fails (Failure.OfLoader name) (Loader.ofTable sources name) := by
  unfold ofTable
  split
  · exact .ok
  · exact .error .notFound

namespace Directories

variable (t : FileTree) (name : String) (extensions : List String)

theorem firstFile_fails (ls : List Location) : Fails Failure.IsFault (firstFile t ls) := by
  induction ls with
  | nil => exact .ok
  | cons l ls ih =>
    unfold firstFile
    split
    · exact .ok
    · exact .error trivial
    · exact ih

theorem searchIn_fails (base : Location) :
    Fails Failure.IsFault (searchIn t name extensions base) := by
  refine (firstFile_fails t _).bind fun found => ?_
  split
  · exact .ok
  · exact .ite (.error trivial) .ok

/-- A search for a file does not raise errors. -/
theorem search_fails (paths : List String) :
    Fails Failure.IsFault (search t name extensions paths) := by
  induction paths with
  | nil => exact .ok
  | cons path paths ih =>
    refine .ite (.error trivial) ((searchIn_fails t name extensions _).bind fun found => ?_)
    split
    · exact .ok
    · exact ih

/-- **A loader of directories raises errors about the name that it is asked for.** -/
theorem load_fails (d : Directories) : Fails (Failure.OfLoader name) (d.load t name) := by
  have searched : Fails Failure.IsFault (d.find t name) :=
    .ite .ok (search_fails t name d.extensions d.searchPaths)
  refine (searched.mono fun _ fault => fault.ofLoader name).bind fun found => ?_
  split
  · exact .error .notFound
  · split
    · exact .error (.fault _)
    · split
      · exact .ok
      · exact .error (.unreadable none)

end Directories

end Stencil
