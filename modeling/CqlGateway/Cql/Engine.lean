import CqlGateway.Cql.Command
import CqlGateway.Cql.Index
import CqlGateway.Cql.Insert
import CqlGateway.Cql.Mutation
import CqlGateway.Cql.Table
import CqlGateway.Cql.View
import CqlGateway.Statement.Reader

/-!
# Statements in CQL

Statements fall into families, and each family is rendered by rules of its own. A statement is
first normalized, then rendered by the one family that claims it.
-/

namespace CqlGateway

inductive Family where
  | keyspace
  | table
  | index
  | view
  | select
  | insert
  | update
  | delete
  deriving DecidableEq, Repr

/-- The settings of the gateway that show in CQL. -/
structure RenderingOptions where
  replication : Replication := {}
  /-- The limit of queries without one; if not positive, the standard limit is used. -/
  defaultLimit : Int := 0
  deriving DecidableEq, Repr

namespace Family

def all : List Family :=
  [.keyspace, .table, .index, .view, .select, .insert, .update, .delete]

def name : Family → String
  | .keyspace => "keyspace"
  | .table => "table"
  | .index => "index"
  | .view => "view"
  | .select => "select"
  | .insert => "insert"
  | .update => "update"
  | .delete => "delete"

def draft? (options : RenderingOptions) : Family → Statement → Option (Draft String)
  | .keyspace, .createKeyspace s => some (s.cql options.replication)
  | .keyspace, .alterKeyspace s => some (s.cql options.replication)
  | .keyspace, .dropKeyspace s => some s.cql
  | .keyspace, .use s => some s.cql
  | .keyspace, .describe s =>
    if s.listsKeyspaces then some (pure Describe.allKeyspaces.cql) else none
  | .table, .createTable s => some s.cql
  | .table, .alterTable s => some s.cql
  | .table, .dropTable s => some s.cql
  | .table, .truncateTable s => some s.cql
  | .table, .describe s =>
    if s.listsKeyspaces then none else some (pure s.normalize.cql)
  | .index, .createIndex s => some s.cql
  | .index, .dropIndex s => some s.cql
  | .view, .createView s => some s.cql
  | .view, .dropView s => some s.cql
  | .select, .select s => some (s.cql (defaultLimit options.defaultLimit))
  | .insert, .insert s => some s.cql
  | .update, .update s => some s.cql
  | .delete, .delete s => some s.cql
  | _, _ => none

def claims : Family → Statement → Bool
  | .keyspace, .createKeyspace _ | .keyspace, .alterKeyspace _ | .keyspace, .dropKeyspace _
  | .keyspace, .use _ => true
  | .keyspace, .describe s => s.listsKeyspaces
  | .table, .createTable _ | .table, .alterTable _ | .table, .dropTable _
  | .table, .truncateTable _ => true
  | .table, .describe s => !s.listsKeyspaces
  | .index, .createIndex _ | .index, .dropIndex _ => true
  | .view, .createView _ | .view, .dropView _ => true
  | .select, .select _ => true
  | .insert, .insert _ => true
  | .update, .update _ => true
  | .delete, .delete _ => true
  | _, _ => false

def render (options : RenderingOptions) (f : Family) (s : Statement) :
    Except Failure Rendering :=
  match f.draft? options s with
  | none => .error (.wrapped (f.name ++ " translator") (.unclaimed s.kind.name))
  | some draft =>
    match draft.rendering with
    | .ok r => .ok r
    | .error e => .error e.failure

end Family

namespace Statement

def family : Statement → Family
  | .createKeyspace _ | .alterKeyspace _ | .dropKeyspace _ | .use _ => .keyspace
  | .describe s => if s.listsKeyspaces then .keyspace else .table
  | .createTable _ | .alterTable _ | .dropTable _ | .truncateTable _ => .table
  | .createIndex _ | .dropIndex _ => .index
  | .createView _ | .dropView _ => .view
  | .select _ => .select
  | .insert _ => .insert
  | .update _ => .update
  | .delete _ => .delete

def normalize : Statement → Statement
  | .describe s => .describe s.normalize
  | s => s

/-- A normalized statement in CQL. A rendering without text would be a fault of the family. -/
def renderNormalized (options : RenderingOptions) (s : Statement) : Except Failure Rendering :=
  match s.family.render options s with
  | .error e => .error e
  | .ok r =>
    if r.text = "" then
      .error (.assertion (s.family.name ++ " translator produced no output"))
    else
      .ok r

def render (options : RenderingOptions) (s : Statement) : Except Failure Rendering :=
  s.normalize.renderNormalized options

def absentFailure : Failure :=
  .unclaimed "<nil>"

end Statement

inductive ParserReply where
  | parsed (statement : Statement)
  | failed (cause : Failure)
  /-- The parser gave neither a statement nor a cause. -/
  | absent
  /-- The parser broke down. -/
  | panicked (value : String)

abbrev StatementParser := String → ParserReply

def documentParser : StatementParser := fun text =>
  match Statement.ofText text with
  | .ok s => .parsed s
  | .error cause => .failed cause

structure Attempt where
  statement? : Option Statement
  outcome : Except Failure Rendering
  /-- The kind under which the attempt is counted, if it is. -/
  counted? : Option String

namespace Attempt

def ofStatement (options : RenderingOptions) (s : Statement) : Attempt where
  statement? := some s
  outcome := s.render options
  counted? := some s.normalize.kind.name

/-- Render the statement that the parser reads. If the parser breaks down, there is no attempt but
only the value that it leaves. -/
def ofParser (options : RenderingOptions) (parser? : Option StatementParser) (text : String) :
    Except String Attempt :=
  match parser? with
  | none => .ok ⟨none, .error (.plain "no parser configured"), none⟩
  | some parse =>
    match parse text with
    | .parsed s => .ok (ofStatement options s)
    | .failed cause => .ok ⟨none, .error (.parse cause text), some "unknown"⟩
    | .absent => .ok ⟨none, .error Statement.absentFailure, some "unknown"⟩
    | .panicked value => .error value

/-- Render a text: a command that is understood as it is, or a statement that the parser reads. -/
def ofText (options : RenderingOptions) (parser? : Option StatementParser) (text : String) :
    Except String Attempt :=
  match Command.describe? text with
  | some d => .ok (ofStatement options (.describe d))
  | none => ofParser options parser? text

def operationName (a : Attempt) : String :=
  match a.statement? with
  | some s => s.operation.name
  | none => ""

end Attempt

end CqlGateway
