import PostgresOperator.Reshard.BlockOwner
import PostgresOperator.Reshard.JobIdentity
import PostgresOperator.Reshard.CopyJob
import PostgresOperator.Router.ReadOnly
import PostgresOperator.PgRouter.Forwarding
import PostgresOperator.PgRouter.FailedTransaction
import PostgresOperator.PgRouter.Transaction
import PostgresOperator.PgRouter.StatementCache
import PostgresOperator.Cluster.FailoverRun
import PostgresOperator.Cluster.GoodCopy
import PostgresOperator.Cluster.Deadlock
import PostgresOperator.Cluster.FenceRun
import PostgresOperator.Backup.Exclusive
import PostgresOperator.Router.ScatterAnswer
import PostgresOperator.Backup.Repository
import PostgresOperator.Database.Coverage
import PostgresOperator.Reshard.JobSource
import PostgresOperator.Pooler.Promise
import PostgresOperator.Reshard.SplitFrame
import PostgresOperator.Cluster.Synchronous
import PostgresOperator.Reshard.RowConservation
import PostgresOperator.Reshard.Catchup
import PostgresOperator.Reshard.Concurrent
import PostgresOperator.Cluster.RecordedStatus
import PostgresOperator.PgRouter.ReadyCount
import PostgresOperator.Cluster.LeastLoss
import PostgresOperator.Instance.Rejoin
import PostgresOperator.Cluster.InitOnce
import PostgresOperator.Reshard.AutoSplitNames
import PostgresOperator.Cluster.RoleLabels
import PostgresOperator.Cluster.Switchover
import PostgresOperator.PgRouter.Dialer
import PostgresOperator.Router.PartialMerge
import PostgresOperator.PgRouter.Refresh
import PostgresOperator.PgRouter.ReadBalance
import PostgresOperator.Reshard.AutoSplitTriggers
import PostgresOperator.Cluster.PVCFence
import PostgresOperator.PgRouter.Codec
