/-! The settings of a document. -/

namespace RouteDoc

structure Settings where
  title : String
  host : String
  basePath : String := "/"
  /-- Whether every path has the mark of the default quota. -/
  includeQuota : Bool := false
  deriving DecidableEq, Repr, Inhabited

/-- A setting that must be given is not. -/
inductive MissingSetting where
  | title
  | host
  deriving DecidableEq, Repr

def MissingSetting.message : MissingSetting → String
  | .title => "missing field `title`"
  | .host => "missing field `host`"

/-- The settings that are given, with defaults for the base path and the quota. -/
def Settings.ofGiven (title host basePath : Option String) (includeQuota : Option Bool) :
    Except MissingSetting Settings :=
  match title, host with
  | none, _ => .error .title
  | _, none => .error .host
  | some title, some host =>
    .ok {
      title, host
      basePath := basePath.getD "/"
      includeQuota := includeQuota.getD false }

end RouteDoc
