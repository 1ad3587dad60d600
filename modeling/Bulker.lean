import Bulker.Types.DataType
import Bulker.Types.Table
import Bulker.Types.Convergence
import Bulker.Types.Field
import Bulker.Types.Fields
import Bulker.Types.MergeSpec
import Bulker.Types.Clone
import Bulker.Types.Batch
import Bulker.Types.Lifecycle
import Bulker.EventsLog.ClickhouseEventsLog
import Bulker.ApiBased.Mixpanel
import Bulker.Types.Values
import Bulker.Implementations.GoogleCloudStorage
import Bulker.Sql.DataSourceConfig
