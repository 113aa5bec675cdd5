import RouteDoc.Field.Parser

/-! The outcome of reading annotations: the warnings raised on the way, in order, and the value read
or the fault that stopped the reading. Warnings raised before a fault are kept. -/

namespace RouteDoc

/-- A line with a type token that cannot be read. -/
structure TypeFault where
  /-- The source of the line, or nothing where it is not known. -/
  file : String
  line : String
  cause : TypeError
  deriving DecidableEq, Repr

/-- The fault of a line that stands in the source `file`. -/
def TypeFault.inFile (fault : TypeFault) (file : String) : TypeFault :=
  { fault with file }

def TypeFault.message (fault : TypeFault) : String :=
  let place := if fault.file.isEmpty then "" else " in " ++ fault.file
  "invalid type expression" ++ place ++ ": " ++ fault.cause.message ++ " in `" ++
    String.ofList (Text.trim fault.line.toList) ++ "`"

/-- A line that is read, though not quite as its author may mean it. -/
inductive Warning where
  /-- The field is optional only through a bracket that is not part of its name token. -/
  | strayBracket (name line : String)
  deriving DecidableEq, Repr

def Warning.message : Warning → String
  | .strayBracket name line =>
    "Field `" ++ name ++ "` is marked optional only by a `[` elsewhere on the line: " ++
      String.ofList (Text.trim line.toList)

theorem except_bind_eq_ok_iff {ε α β : Type} {x : Except ε α} {f : α → Except ε β} {b : β} :
    (x >>= f) = .ok b ↔ ∃ a, x = .ok a ∧ f a = .ok b := by
  cases x <;> simp [bind, Except.bind]

theorem except_eq_ok_of_toOption {ε α : Type} {x : Except ε α} {a : α}
    (h : x.toOption = some a) : x = .ok a := by
  cases x with
  | error e => cases h
  | ok b => exact congrArg Except.ok (Option.some.inj h)

/-- A value read, or the fault that stopped the reading, with the warnings raised. -/
structure Reading (α : Type) where
  warnings : List Warning
  result : Except TypeFault α

namespace Reading

variable {α β : Type}

@[ext] theorem ext {r s : Reading α} (hw : r.warnings = s.warnings) (hr : r.result = s.result) :
    r = s := by
  cases r; cases s; cases hw; cases hr; rfl

/-- Reads on with `f`, unless a fault has stopped the reading. -/
def andThen (r : Reading α) (f : α → Reading β) : Reading β :=
  match r.result with
  | .ok a => ⟨r.warnings ++ (f a).warnings, (f a).result⟩
  | .error fault => ⟨r.warnings, .error fault⟩

instance : Monad Reading where
  pure a := ⟨[], .ok a⟩
  bind := andThen

/-- The reading that is stopped by a fault at once. -/
def fail (fault : TypeFault) : Reading α := ⟨[], .error fault⟩

/-- The reading that raises one warning. -/
def warn (warning : Warning) : Reading Unit := ⟨[warning], .ok ()⟩

/-- The reading of lines from the source `file`, which its fault then names. -/
def inFile (file : String) (r : Reading α) : Reading α :=
  ⟨r.warnings, r.result.mapError (·.inFile file)⟩

@[simp] theorem result_pure (a : α) : (pure a : Reading α).result = .ok a := rfl

@[simp] theorem warnings_pure (a : α) : (pure a : Reading α).warnings = [] := rfl

@[simp] theorem result_bind (r : Reading α) (f : α → Reading β) :
    (r >>= f).result = r.result >>= fun a => (f a).result := by
  obtain ⟨w, _ | a⟩ := r <;> rfl

theorem result_map (f : α → β) (r : Reading α) : (f <$> r).result = r.result.map f := by
  obtain ⟨w, _ | a⟩ := r <;> rfl

theorem bind_eq_ok_iff {r : Reading α} {f : α → Reading β} {b : β} :
    (r >>= f).result = .ok b ↔ ∃ a, r.result = .ok a ∧ (f a).result = .ok b := by
  rw [result_bind, except_bind_eq_ok_iff]

theorem ok_bind (w : List Warning) (a : α) (f : α → Reading β) :
    (⟨w, .ok a⟩ : Reading α) >>= f = ⟨w ++ (f a).warnings, (f a).result⟩ := rfl

theorem error_bind (w : List Warning) (fault : TypeFault) (f : α → Reading β) :
    (⟨w, .error fault⟩ : Reading α) >>= f = ⟨w, .error fault⟩ := rfl

instance : LawfulMonad Reading := .mk' Reading
  (fun r => by
    obtain ⟨w, _ | a⟩ := r
    · rfl
    · exact Reading.ext (List.append_nil w) rfl)
  (fun _ _ => rfl)
  (fun r f g => by
    obtain ⟨w, _ | a⟩ := r
    · rfl
    · show andThen (andThen ⟨w, .ok a⟩ f) g = andThen ⟨w, .ok a⟩ fun a => andThen (f a) g
      cases h : f a with
      | mk v s => cases s <;> simp [andThen, h, List.append_assoc])

end Reading

end RouteDoc
