import Rustice.AddMonths
import Rustice.ArrayConstruct
import Rustice.ArrayFlatten
import Rustice.ArraySort
import Rustice.ArrayUnionAgg
import Rustice.ArrayUniqueAgg
import Rustice.BinaryText
import Rustice.BoolAgg
import Rustice.BoolFunctions
import Rustice.CachingTable
import Rustice.CaseAliases
import Rustice.ConvertTimezone
import Rustice.CteInliner
import Rustice.DateAddDiff
import Rustice.DatePadding
import Rustice.DateRoundTrip
import Rustice.Div0
import Rustice.EncryptRaw
import Rustice.ExecutionService
import Rustice.FlattenInput
import Rustice.FlattenPaths
import Rustice.FormatElements
import Rustice.GenerateRange
import Rustice.InsertText
import Rustice.JsonEncodeTypes
import Rustice.LikeAny
import Rustice.ListAgg
import Rustice.MergeAssignments
import Rustice.MergeStream
import Rustice.Metastore
import Rustice.NextDay
import Rustice.ObjectAgg
import Rustice.ObjectPick
import Rustice.PartsExact
import Rustice.PercentileCont
import Rustice.RegexpLike
import Rustice.RemoveEmpty
import Rustice.SelectAliases
import Rustice.SessionContext
import Rustice.SessionVariables
import Rustice.Sessions
import Rustice.ShowQuery
import Rustice.SpcsSession
import Rustice.SplitAggregates
import Rustice.StringEncoding
import Rustice.Strtok
import Rustice.SubstrAll
import Rustice.SubstrFold
import Rustice.TargetFilter
import Rustice.TimestampCast
import Rustice.TimestampStruct
import Rustice.TimestampType
import Rustice.ToArray
import Rustice.TopLimitShape
import Rustice.TrueEvent
import Rustice.TruncateTable
import Rustice.UnionSchema
import Rustice.WeekOfYear
