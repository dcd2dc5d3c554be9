import CqlGateway.Main
import CqlGateway.Proofs.Catalog.ForeignKeys
import CqlGateway.Proofs.Catalog.KeyChange
import CqlGateway.Proofs.Catalog.Printing
import CqlGateway.Proofs.Catalog.Snapshot
import CqlGateway.Proofs.Cql.AlterTable
import CqlGateway.Proofs.Cql.Arithmetic
import CqlGateway.Proofs.Cql.ColumnType
import CqlGateway.Proofs.Cql.Command
import CqlGateway.Proofs.Cql.OperatorSpelling
import CqlGateway.Proofs.Cql.QueryLimit
import CqlGateway.Proofs.Cql.SourceQuotes
import CqlGateway.Proofs.Cql.ViewGuard
import CqlGateway.Proofs.Execution.Delivery
import CqlGateway.Proofs.Execution.Keyspaces
import CqlGateway.Proofs.Execution.Stability
import CqlGateway.Proofs.Permission.Recency
import CqlGateway.Proofs.Service.Confinement
import CqlGateway.Proofs.Service.Shape
import CqlGateway.Proofs.Text.Excerpt
