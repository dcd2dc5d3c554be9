import CqlGateway.Catalog.Connection
import CqlGateway.Cql.Engine
import CqlGateway.Execution.Cluster
import CqlGateway.Permission.Cache

/-!
# Settings

The settings of the gateway, with the values that hold unless they are set. Settings that no part
of the gateway accepts are refused.
-/

namespace CqlGateway

structure AuthoritySettings where
  /-- `none`, `http` or `sql`. -/
  type : String := "none"
  url : String := ""
  timeout : Int := 0
  database : Catalog.Connection := {}
  /-- Whether requests without operation are permitted. -/
  allowUnannotated : Bool := false
  deriving DecidableEq, Repr

structure CacheSettings where
  ttl : Int := Permission.Cache.standardTtl
  size : Int := Permission.Cache.standardSize
  deriving DecidableEq, Repr

structure LogSettings where
  level : String := "info"
  development : Bool := false
  deriving DecidableEq, Repr

structure Settings where
  store : Execution.StoreSettings := { hosts := ["127.0.0.1"], consistency := "QUORUM" }
  authority : AuthoritySettings := {}
  cache : CacheSettings := {}
  replication : Replication := { strategy := "SimpleStrategy", factor := 1 }
  defaultLimit : Int := 100
  log : LogSettings := {}
  deriving DecidableEq, Repr

namespace Settings

def validateAuthority (a : AuthoritySettings) : Except Failure Unit :=
  match a.type with
  | "none" => .ok ()
  | "http" =>
    if a.url = "" then .error (.plain "authority.url is required for the http authority")
    else .ok ()
  | "sql" =>
    match Catalog.Dialect.ofName a.database.type with
    | .ok _ => .ok ()
    | .error f => .error (.wrapped "authority.database" f)
  | type => .error (.plain ("unknown authority type " ++ Text.quote type))

def validate (s : Settings) : Except Failure Unit := do
  validateAuthority s.authority
  if s.cache.ttl < 0 then throw (.plain "cache.ttl must not be negative")
  if s.replication.factor < 1 then throw (.plain "replication.factor must be at least 1")
  if s.defaultLimit < 1 then throw (.plain "translate.default_limit must be at least 1")

def renderingOptions (s : Settings) : RenderingOptions where
  replication := s.replication
  defaultLimit := s.defaultLimit

end Settings

end CqlGateway
